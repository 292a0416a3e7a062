import OpenairHss.Epc.Service
import OpenairHss.Lib.Assign
import OpenairHss.Lib.Json

/-!
# The options

`Options::parse` takes the options of the command line, as `getopt_long` returns them, then the members
of the JSON file that one of them names, and last checks that nothing is missing.  A bit of `options`
says that a value was given, and a value that was given is not taken from the file.
-/

namespace OpenairHss.Startup

open Epc Dns

/-! ### The values -/

/-- The bits of `options`. -/
inductive OptionsSelected
  | jsoncfg
  | diameterconfiguration
  | cassserver
  | cassuser
  | casspwd
  | cassdb
  | randvector
  | optkey
  | reloadkey
  | onlyloadkey
  | gtwport
  | gtwhost
  | restport
  | logmaxsize
  | lognbrfiles
  | logfilename
  | logqueuesize
  | numworkers
  | concurrent
  | statlogfilename
  | statlognbrfiles
  | statlogmaxsize
  | statfrequency
  | auditlogfilename
  | auditlognbrfiles
  | auditlogmaxsize
  | ossport
  | ossfile
  | roamallow
deriving DecidableEq

def OptionsSelected.value : OptionsSelected → Nat
  | jsoncfg => 0x01
  | diameterconfiguration => 0x02
  | cassserver => 0x04
  | cassuser => 0x08
  | casspwd => 0x10
  | cassdb => 0x20
  | randvector => 0x40
  | optkey => 0x80
  | reloadkey => 0x100
  | onlyloadkey => 0x200
  | gtwport => 0x400
  | gtwhost => 0x800
  | restport => 0x1000
  | logmaxsize => 0x2000
  | lognbrfiles => 0x4000
  | logfilename => 0x8000
  | logqueuesize => 0x10000
  | numworkers => 0x20000
  | concurrent => 0x40000
  | statlogfilename => 0x80000
  | statlognbrfiles => 0x100000
  | statlogmaxsize => 0x200000
  | statfrequency => 0x400000
  | auditlogfilename => 0x800000
  | auditlognbrfiles => 0x1000000
  | auditlogmaxsize => 0x2000000
  | ossport => 0x4000000
  | ossfile => 0x8000000
  | roamallow => 0x10000000

/-- The variables of `Options` that hold a value. -/
inductive Setting
  | jsoncfg
  | diameterconfiguration
  | cassserver
  | cassuser
  | casspwd
  | cassdb
  | casscoreconnections
  | cassmaxconnections
  | cassioqueuesize
  | cassiothreads
  | randvector
  | roamallow
  | optkey
  | reloadkey
  | onlyloadkey
  | gtwport
  | gtwhost
  | restport
  | ossport
  | ossfile
  | synchimsi
  | synchauts
  | numworkers
  | concurrent
  | logmaxsize
  | lognbrfiles
  | logfilename
  | logqueuesize
  | statlogmaxsize
  | statlognbrfiles
  | statlogfilename
  | statsfrequency
  | auditlogmaxsize
  | auditlognbrfiles
  | auditlogfilename
deriving DecidableEq

namespace Setting

/-- A `std::string`, a `bool`, or an integer. -/
abbrev Type' : Setting → Type
  | jsoncfg | diameterconfiguration | cassserver | cassuser | casspwd | cassdb | optkey | gtwhost
  | ossfile | synchimsi | synchauts | logfilename | statlogfilename | auditlogfilename => Octets
  | randvector | roamallow | reloadkey | onlyloadkey => Bool
  | _ => Int

/-- The value of the variable when the program starts. -/
def start : (x : Setting) → x.Type'
  | jsoncfg | diameterconfiguration | cassserver | cassuser | casspwd | cassdb | optkey | gtwhost
  | ossfile | synchimsi | synchauts | logfilename | statlogfilename | auditlogfilename => []
  | randvector | roamallow | reloadkey | onlyloadkey => false
  | casscoreconnections => 1
  | cassmaxconnections => 2
  | cassioqueuesize => 8192
  | cassiothreads => 1
  | gtwport | restport | ossport | numworkers | concurrent | logmaxsize | lognbrfiles | logqueuesize
  | statlogmaxsize | statlognbrfiles | statsfrequency | auditlogmaxsize | auditlognbrfiles => 0

/-- The bit that is set together with the variable. -/
def flag : Setting → Option OptionsSelected
  | jsoncfg => some .jsoncfg
  | diameterconfiguration => some .diameterconfiguration
  | cassserver => some .cassserver
  | cassuser => some .cassuser
  | casspwd => some .casspwd
  | cassdb => some .cassdb
  | randvector => some .randvector
  | roamallow => some .roamallow
  | optkey => some .optkey
  | reloadkey => some .reloadkey
  | onlyloadkey => some .onlyloadkey
  | gtwport => some .gtwport
  | gtwhost => some .gtwhost
  | restport => some .restport
  | ossport => some .ossport
  | ossfile => some .ossfile
  | numworkers => some .numworkers
  | concurrent => some .concurrent
  | logmaxsize => some .logmaxsize
  | lognbrfiles => some .lognbrfiles
  | logfilename => some .logfilename
  | logqueuesize => some .logqueuesize
  | statlogmaxsize => some .statlogmaxsize
  | statlognbrfiles => some .statlognbrfiles
  | statlogfilename => some .statlogfilename
  | statsfrequency => some .statfrequency
  | auditlogmaxsize => some .auditlogmaxsize
  | auditlognbrfiles => some .auditlognbrfiles
  | auditlogfilename => some .auditlogfilename
  | casscoreconnections | cassmaxconnections | cassioqueuesize | cassiothreads | synchimsi
  | synchauts => none

end Setting

abbrev Assignment := Assign.Assignment Setting.Type'

structure Options where
  options : Nat
  values : (x : Setting) → x.Type'

namespace Options

def new : Options := ⟨0, Setting.start⟩

/-- `options & f` -/
def selected (o : Options) (f : OptionsSelected) : Bool := o.options &&& f.value ≠ 0

def assign (o : Options) (a : Assignment) : Options where
  options := match a.target.flag with
    | none => o.options
    | some f => o.options ||| f.value
  values := Assign.Assignment.apply o.values a

/-- How the program goes on: it ends in `exit`, an assertion of the JSON library fails, or a function
has returned. -/
inductive Outcome (α : Type)
  | exit
  | abort
  | done (a : α)

/-- The code goes on if the first part has returned `true`. -/
def Outcome.andThen (x : Outcome (Bool × Options)) (f : Options → Outcome (Bool × Options)) :
    Outcome (Bool × Options) :=
  match x with
  | .done (true, o) => f o
  | outcome => outcome

/-! ### The command line -/

def atol (s : Octets) : Int :=
  let s := s.dropWhile fun b => b = 0x20 ∨ (0x09 ≤ b ∧ b ≤ 0x0d)
  let (negative, s) := match s with
    | 0x2d :: s => (true, s)
    | 0x2b :: s => (false, s)
    | s => (false, s)
  let digits := s.takeWhile fun b => 0x30 ≤ b ∧ b ≤ 0x39
  let n : Int := digits.foldl (fun n b => n * 10 + (b.toNat - 0x30 : Nat)) 0
  max (-2 ^ 63) (min (2 ^ 63 - 1) (if negative then -n else n))

/-- An integer that is stored in 32 bits without a sign. -/
def unsigned (n : Int) : Int := n % 2 ^ 32

/-- What an option that `getopt_long` has returned sets.  The key of `-o` is not taken: the string is
assigned a `bool`. -/
def option (c : Char) (optarg : Octets) : Option Assignment :=
  match c with
  | 'j' => some ⟨.jsoncfg, optarg⟩
  | 'f' => some ⟨.diameterconfiguration, optarg⟩
  | 's' => some ⟨.cassserver, optarg⟩
  | 'u' => some ⟨.cassuser, optarg⟩
  | 'p' => some ⟨.casspwd, optarg⟩
  | 'd' => some ⟨.cassdb, optarg⟩
  | 'r' => some ⟨.randvector, true⟩
  | 'w' => some ⟨.roamallow, true⟩
  | 'o' => some ⟨.optkey, [1]⟩
  | 'i' => some ⟨.reloadkey, true⟩
  | 'q' => some ⟨.onlyloadkey, true⟩
  | 'x' => some ⟨.synchimsi, optarg⟩
  | 'y' => some ⟨.synchauts, optarg⟩
  | 'v' => some ⟨.logmaxsize, atoi optarg⟩
  | 'V' => some ⟨.statlogmaxsize, atoi optarg⟩
  | 'n' => some ⟨.lognbrfiles, atoi optarg⟩
  | 'N' => some ⟨.statlognbrfiles, atoi optarg⟩
  | 'l' => some ⟨.logfilename, optarg⟩
  | 'L' => some ⟨.statlogfilename, optarg⟩
  | 't' => some ⟨.logqueuesize, atoi optarg⟩
  | 'W' => some ⟨.statsfrequency, unsigned (atol optarg)⟩
  | 'z' => some ⟨.numworkers, atoi optarg⟩
  | 'A' => some ⟨.concurrent, atoi optarg⟩
  | 'C' => some ⟨.casscoreconnections, unsigned (atoi optarg)⟩
  | 'D' => some ⟨.cassmaxconnections, unsigned (atoi optarg)⟩
  | 'E' => some ⟨.cassioqueuesize, unsigned (atoi optarg)⟩
  | 'F' => some ⟨.cassiothreads, unsigned (atoi optarg)⟩
  | _ => none

/-- The loop of `parseInputOptions`, with what `getopt_long` returns.  `-h` prints the help. -/
def parseInputOptions (o : Options) (result : Bool) :
    List (Char × Octets) → Outcome (Bool × Options)
  | [] => .done (result, o)
  | (c, optarg) :: rest =>
    if c = 'h' then .exit
    else match option c optarg with
      | some a => parseInputOptions (o.assign a) result rest
      | none => parseInputOptions o false rest

/-! ### The file -/

/-- What is made of the value of a member: it has the wrong type, an assertion fails, or it is taken. -/
inductive Read (α : Type)
  | wrong
  | abort
  | value (a : α)

/-- `IsString`, `GetString`: the string ends at its first null. -/
def readString : Json → Read Octets
  | .string s => .value (s.takeWhile (· ≠ 0))
  | _ => .wrong

def readBool : Json → Read Bool
  | .bool b => .value b
  | _ => .wrong

def readInt : Json → Read Int
  | .number (.int n) => if (JsonNumber.int n).isInt then .value n else .wrong
  | _ => .wrong

/-- `IsInt`, `GetUint`, which does not take a negative number. -/
def readUint : Json → Read Int
  | .number (.int n) =>
    if (JsonNumber.int n).isInt then if 0 ≤ n then .value n else .abort else .wrong
  | _ => .wrong

/-- `IsInt64`, `GetInt64`, stored as `uint32_t` -/
def readInt64 : Json → Read Int
  | .number (.int n) => if (JsonNumber.int n).isInt64 then .value (unsigned n) else .wrong
  | _ => .wrong

/-- A member that is looked for. -/
structure Entry where
  name : String
  setting : Setting
  read : Json → Read setting.Type'

def commonEntries : List Entry := [⟨"fdcfg", .diameterconfiguration, readString⟩]

def hssEntries : List Entry :=
  [⟨"casssrv", .cassserver, readString⟩, ⟨"cassusr", .cassuser, readString⟩,
    ⟨"casspwd", .casspwd, readString⟩, ⟨"cassdb", .cassdb, readString⟩,
    ⟨"casscoreconnections", .casscoreconnections, readUint⟩,
    ⟨"cassmaxconnections", .cassmaxconnections, readUint⟩,
    ⟨"cassioqueuesize", .cassioqueuesize, readUint⟩, ⟨"cassiothreads", .cassiothreads, readUint⟩,
    ⟨"randv", .randvector, readBool⟩, ⟨"roamallow", .roamallow, readBool⟩,
    ⟨"optkey", .optkey, readString⟩, ⟨"reloadkey", .reloadkey, readBool⟩,
    ⟨"gtwport", .gtwport, readInt⟩, ⟨"gtwhost", .gtwhost, readString⟩,
    ⟨"restport", .restport, readInt⟩, ⟨"logsize", .logmaxsize, readInt⟩,
    ⟨"lognumber", .lognbrfiles, readInt⟩, ⟨"logname", .logfilename, readString⟩,
    ⟨"logqsize", .logqueuesize, readInt⟩, ⟨"statlogsize", .statlogmaxsize, readInt⟩,
    ⟨"statlognumber", .statlognbrfiles, readInt⟩, ⟨"statlogname", .statlogfilename, readString⟩,
    ⟨"statfreq", .statsfrequency, readInt64⟩, ⟨"auditlogsize", .auditlogmaxsize, readInt⟩,
    ⟨"auditlognumber", .auditlognbrfiles, readInt⟩,
    ⟨"auditlogname", .auditlogfilename, readString⟩, ⟨"numworkers", .numworkers, readInt⟩,
    ⟨"concurrent", .concurrent, readInt⟩, ⟨"ossport", .ossport, readInt⟩,
    ⟨"ossfile", .ossfile, readString⟩]

/-- `HasMember`, `operator[]`: the first member of the name.  `none`: the value is not an object. -/
def member (name : String) : Json → Option (Option Json)
  | .object members => some ((members.find? fun m => m.1 = name).map (·.2))
  | _ => none

/-- The tests for one member; `true`: the parser goes on. -/
def parseEntry (o : Options) (jsonSection : Json) (e : Entry) : Outcome (Bool × Options) :=
  if e.setting.flag.any o.selected then .done (true, o)
  else match member e.name jsonSection with
    | none => .abort
    | some none => .done (true, o)
    | some (some v) => match e.read v with
      | .wrong => .done (false, o)
      | .abort => .abort
      | .value a => .done (true, o.assign ⟨e.setting, a⟩)

def parseEntries (o : Options) (jsonSection : Json) : List Entry → Outcome (Bool × Options)
  | [] => .done (true, o)
  | e :: es => (parseEntry o jsonSection e).andThen fun o => parseEntries o jsonSection es

/-- A section of the document, which may be missing. -/
def parseSection (o : Options) (doc : Json) (name : String) (es : List Entry) :
    Outcome (Bool × Options) :=
  match member name doc with
  | some (some jsonSection) => parseEntries o jsonSection es
  | _ => .done (true, o)

/-- `parseJson`, with the document of the file, `none` if it cannot be opened.  What is not a JSON text
is no object. -/
def parseJson (o : Options) : Option Json → Outcome (Bool × Options)
  | some (.object members) =>
    (parseSection o (.object members) "common" commonEntries).andThen fun o =>
      parseSection o (.object members) "hss" hssEntries
  | _ => .done (false, o)

/-! ### The whole -/

/-- The values that `validateOptions` asks for. -/
def required : List OptionsSelected :=
  [.diameterconfiguration, .cassserver, .cassuser, .casspwd, .cassdb, .optkey, .gtwport, .gtwhost,
    .restport, .logmaxsize, .lognbrfiles, .logfilename, .logqueuesize, .statlogmaxsize,
    .statlognbrfiles, .statlogfilename, .statfrequency, .auditlogmaxsize, .auditlognbrfiles,
    .auditlogfilename, .numworkers, .concurrent, .ossport, .ossfile]

def validateOptions (o : Options) : Bool := required.all o.selected

/-- `Options::parse`; `files` are the documents of the files that can be opened. -/
def parse (files : Octets → Option Json) (args : List (Char × Octets)) : Outcome (Bool × Options) :=
  ((parseInputOptions new true args).andThen fun o =>
    if o.values .jsoncfg ≠ [] then parseJson o (files (o.values .jsoncfg))
    else .done (true, o)).andThen fun o => .done (o.validateOptions, o)

end Options

end OpenairHss.Startup
