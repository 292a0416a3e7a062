import OpenairHss.Stats.Live

/-!
# The attempts that the hooks register

`HookEvent` registers an attempt for each message that freeDiameter receives, sends, or fails to parse,
route or deliver.  `attempts_of_hooks` says what the four counters of a command are after any run: each
of its messages is counted once, and on the side on which it travels.  That fails in two places.  The
requests and answers of IDR, which the HSS sends and receives, are on the wrong side unless they have
failed, and the messages of SRR are all counted as failed.
-/

namespace OpenairHss.Stats

/-- What is read of the header of a message. -/
structure MsgHdr where
  msg_appl : Nat
  msg_code : Nat
  /-- `CMD_FLAG_REQUEST` -/
  isRequest : Bool
deriving DecidableEq

/-- The ids of the three applications, and the codes of the commands, with `true` for the request. -/
structure Dict where
  s6as6d : Nat
  s6t : Nat
  s6c : Nat
  code : Command → Bool → Nat

/-- The callback that is called. -/
inductive Hook
  | error
  | ok
deriving DecidableEq

/-- A call of a hook: there may be no message, or no header. -/
structure Call where
  hook : Hook
  hdr : Option MsgHdr
deriving DecidableEq

namespace Dict

/-- A chain of tests, with what is registered for the request and for the answer of each command. -/
def chain (d : Dict) (hdr : MsgHdr) (entries : List (Command × StatAttempType × StatAttempType)) :
    Option (StatType × StatAttempType) :=
  entries.findSome? fun e =>
    if hdr.msg_code = d.code e.1 true ∧ hdr.isRequest = true then some (e.1.type, e.2.1)
    else if hdr.msg_code = d.code e.1 false ∧ hdr.isRequest = false then some (e.1.type, e.2.2)
    else none

def md_hook_cb_error (d : Dict) (hdr : MsgHdr) : Option (StatType × StatAttempType) :=
  if hdr.msg_appl = d.s6as6d then
    d.chain hdr [(.air, .receivedKo, .sentKo), (.ulr, .receivedKo, .sentKo),
      (.pur, .receivedKo, .sentKo), (.idr, .sentKo, .receivedKo)]
  else if hdr.msg_appl = d.s6t then
    d.chain hdr [(.cir, .receivedKo, .sentKo), (.rir, .sentKo, .receivedKo),
      (.nir, .receivedKo, .sentKo)]
  else if hdr.msg_appl = d.s6c then d.chain hdr [(.srr, .receivedKo, .sentKo)]
  else none

def md_hook_cb_ok (d : Dict) (hdr : MsgHdr) : Option (StatType × StatAttempType) :=
  if hdr.msg_appl = d.s6as6d then
    d.chain hdr [(.air, .received, .sent), (.ulr, .received, .sent), (.pur, .received, .sent),
      (.idr, .received, .sent)]
  else if hdr.msg_appl = d.s6t then
    d.chain hdr [(.cir, .received, .sent), (.rir, .sent, .received), (.nir, .received, .sent)]
  else if hdr.msg_appl = d.s6c then d.chain hdr [(.srr, .receivedKo, .sentKo)]
  else none

/-- What a call registers. -/
def registers (d : Dict) (call : Call) : Option (StatType × StatAttempType) :=
  call.hdr.bind (match call.hook with
    | .error => d.md_hook_cb_error
    | .ok => d.md_hook_cb_ok)

/-! ### The messages of a command -/

/-- The application of a command. -/
def appl (d : Dict) : Command → Nat
  | .air | .ulr | .pur | .idr => d.s6as6d
  | .cir | .rir | .nir => d.s6t
  | .srr => d.s6c

/-- Ids and codes tell applications and commands apart. -/
structure Distinct (d : Dict) : Prop where
  s6t : d.s6t ≠ d.s6as6d
  s6c : d.s6c ≠ d.s6as6d
  s6c' : d.s6c ≠ d.s6t
  code : ∀ c c' isRequest, d.code c isRequest = d.code c' isRequest → c = c'

/-- The header is that of a message of the command. -/
def isOf (d : Dict) (c : Command) (hdr : MsgHdr) : Bool :=
  hdr.msg_appl = d.appl c ∧ hdr.msg_code = d.code c hdr.isRequest

end Dict

/-- What the hooks register for the messages of a command. -/
def Command.attempt : Command → Hook → Bool → StatAttempType
  | .rir, .error, true | .idr, .error, true => .sentKo
  | .rir, .error, false | .idr, .error, false => .receivedKo
  | .srr, _, true | _, .error, true => .receivedKo
  | .srr, _, false | _, .error, false => .sentKo
  | .rir, .ok, true => .sent
  | .rir, .ok, false => .received
  | _, .ok, true => .received
  | _, .ok, false => .sent

namespace Dict

variable {d : Dict} {c : Command} {hdr : MsgHdr}

theorem chain_eq (d : Dict) (hdr : MsgHdr)
    (entries : List (Command × StatAttempType × StatAttempType)) :
    d.chain hdr entries = entries.findSome? fun e =>
      if hdr.msg_code = d.code e.1 hdr.isRequest then
        some (e.1.type, if hdr.isRequest then e.2.1 else e.2.2)
      else none := by
  rw [chain]
  cases hdr.isRequest <;> simp

theorem chain_sound {entries : List (Command × StatAttempType × StatAttempType)}
    {x : StatType × StatAttempType} (h : d.chain hdr entries = some x) :
    ∃ e ∈ entries, hdr.msg_code = d.code e.1 hdr.isRequest ∧
      x = (e.1.type, if hdr.isRequest then e.2.1 else e.2.2) := by
  rw [chain_eq] at h
  obtain ⟨e, he, hx⟩ := List.exists_of_findSome?_eq_some h
  obtain ⟨hcode, hx⟩ := Option.ite_none_right_eq_some.mp hx
  exact ⟨e, he, hcode, (Option.some.inj hx).symm⟩

/-- A message of a command that the chain has is registered. -/
theorem chain_complete (hd : d.Distinct)
    {entries : List (Command × StatAttempType × StatAttempType)}
    (hnodup : (entries.map (·.1)).Nodup) {request answer : StatAttempType}
    (hmem : (c, request, answer) ∈ entries) (hcode : hdr.msg_code = d.code c hdr.isRequest) :
    d.chain hdr entries = some (c.type, if hdr.isRequest then request else answer) := by
  rw [chain_eq]
  induction entries with
  | nil => exact absurd hmem List.not_mem_nil
  | cons e entries ih =>
    obtain ⟨hfresh, hnodup⟩ := List.nodup_cons.mp hnodup
    rw [List.findSome?_cons]
    rcases List.mem_cons.mp hmem with rfl | hmem
    · rw [if_pos hcode]
    · have hother : hdr.msg_code ≠ d.code e.1 hdr.isRequest := by
        intro h
        have hsame := hd.code _ _ _ (hcode.symm.trans h)
        exact hfresh (List.mem_map.mpr ⟨_, hmem, hsame⟩)
      rw [if_neg hother]
      exact ih hnodup hmem

theorem type_inj {c c' : Command} (h : c.type = c'.type) : c = c' := by
  cases c <;> cases c' <;> first | rfl | exact absurd h (by decide)

/-- What a chain of an application registers, where `f` says what its entries have. -/
theorem chain_iff (hd : d.Distinct) (hdr : MsgHdr) {entries : List (Command × StatAttempType × StatAttempType)}
    (hnodup : (entries.map (·.1)).Nodup) {f : Command → Bool → StatAttempType}
    (hf : ∀ e ∈ entries, e.2 = (f e.1 true, f e.1 false)) (c : Command) (a : StatAttempType) :
    d.chain hdr entries = some (c.type, a) ↔
      c ∈ entries.map (·.1) ∧ hdr.msg_code = d.code c hdr.isRequest ∧ f c hdr.isRequest = a := by
  have hvalue : ∀ e ∈ entries, (if hdr.isRequest then e.2.1 else e.2.2) = f e.1 hdr.isRequest := by
    intro e he
    rw [hf e he]
    cases hdr.isRequest <;> rfl
  constructor
  · intro h
    obtain ⟨e, he, hcode, hx⟩ := chain_sound h
    obtain ⟨htype, ha⟩ := Prod.mk.inj hx
    obtain rfl := type_inj htype
    exact ⟨List.mem_map_of_mem he, hcode, (ha.trans (hvalue e he)).symm⟩
  · rintro ⟨hmem, hcode, rfl⟩
    obtain ⟨e, he, rfl⟩ := List.mem_map.mp hmem
    rw [chain_complete hd hnodup he hcode, hvalue e he]

theorem mem_s6a (hd : d.Distinct) (c : Command) :
    c ∈ [Command.air, .ulr, .pur, .idr] ↔ d.s6as6d = d.appl c := by
  cases c <;> simp [appl, hd.s6t.symm, hd.s6c.symm]

theorem mem_s6t (hd : d.Distinct) (c : Command) :
    c ∈ [Command.cir, .rir, .nir] ↔ d.s6t = d.appl c := by
  cases c <;> simp [appl, hd.s6t, hd.s6c'.symm]

theorem mem_s6c (hd : d.Distinct) (c : Command) : c ∈ [Command.srr] ↔ d.s6c = d.appl c := by
  cases c <;> simp [appl, hd.s6c, hd.s6c']

/-- The branches of the applications. -/
theorem branches_iff (hd : d.Distinct) (hdr : MsgHdr)
    {s6a s6t s6c : List (Command × StatAttempType × StatAttempType)}
    (hs6a : s6a.map (·.1) = [.air, .ulr, .pur, .idr]) (hs6t : s6t.map (·.1) = [.cir, .rir, .nir])
    (hs6c : s6c.map (·.1) = [.srr]) {f : Command → Bool → StatAttempType}
    (hf : ∀ e ∈ s6a ++ s6t ++ s6c, e.2 = (f e.1 true, f e.1 false)) (c : Command)
    (a : StatAttempType) :
    (if hdr.msg_appl = d.s6as6d then d.chain hdr s6a
      else if hdr.msg_appl = d.s6t then d.chain hdr s6t
      else if hdr.msg_appl = d.s6c then d.chain hdr s6c else none) = some (c.type, a) ↔
      d.isOf c hdr = true ∧ f c hdr.isRequest = a := by
  have hchain₁ := chain_iff hd hdr (hs6a ▸ by decide : (s6a.map (·.1)).Nodup)
    (fun e he => hf e (by simp [he])) c a
  have hchain₂ := chain_iff hd hdr (hs6t ▸ by decide : (s6t.map (·.1)).Nodup)
    (fun e he => hf e (by simp [he])) c a
  have hchain₃ := chain_iff hd hdr (hs6c ▸ by decide : (s6c.map (·.1)).Nodup)
    (fun e he => hf e (by simp [he])) c a
  rw [hs6a, mem_s6a hd] at hchain₁
  rw [hs6t, mem_s6t hd] at hchain₂
  rw [hs6c, mem_s6c hd] at hchain₃
  rw [isOf, decide_eq_true_eq, and_assoc]
  split
  case isTrue happl => rw [hchain₁, happl]
  case isFalse hs6a =>
    split
    case isTrue happl => rw [hchain₂, happl]
    case isFalse hs6t =>
      split
      case isTrue happl => rw [hchain₃, happl]
      case isFalse hs6c =>
        have hnone : hdr.msg_appl ≠ d.appl c := by
          cases c with
          | air | ulr | pur | idr => exact hs6a
          | cir | rir | nir => exact hs6t
          | srr => exact hs6c
        simp [hnone]

/-- **What a call registers.** -/
theorem registers_iff (hd : d.Distinct) (call : Call) (c : Command) (a : StatAttempType) :
    d.registers call = some (c.type, a) ↔
      ∃ hdr ∈ call.hdr, d.isOf c hdr = true ∧ c.attempt call.hook hdr.isRequest = a := by
  have herror : ∀ hdr, d.md_hook_cb_error hdr = some (c.type, a) ↔
      d.isOf c hdr = true ∧ c.attempt .error hdr.isRequest = a := by
    intro hdr
    rw [md_hook_cb_error]
    exact branches_iff (f := fun c r => c.attempt .error r) hd hdr rfl rfl rfl (by decide) c a
  have hok : ∀ hdr, d.md_hook_cb_ok hdr = some (c.type, a) ↔
      d.isOf c hdr = true ∧ c.attempt .ok hdr.isRequest = a := by
    intro hdr
    rw [md_hook_cb_ok]
    exact branches_iff (f := fun c r => c.attempt .ok r) hd hdr rfl rfl rfl (by decide) c a
  rw [registers, Option.bind_eq_some_iff]
  cases call.hook with
  | error => simp only [herror, Option.mem_def]
  | ok => simp only [hok, Option.mem_def]

/-- The calls for the messages of a command, of which `p` says by hook and direction which ones. -/
def counts (d : Dict) (c : Command) (p : Hook → Bool → Bool) (call : Call) : Bool :=
  call.hdr.any fun hdr => d.isOf c hdr && p call.hook hdr.isRequest

theorem registers_counts (hd : d.Distinct) (call : Call) (c : Command) (a : StatAttempType) :
    d.registers call = some (c.type, a) ↔
      d.counts c (fun hook isRequest => c.attempt hook isRequest = a) call = true := by
  rw [registers_iff hd, counts]
  cases call.hdr <;> simp

/-- Kinds of messages that exclude each other. -/
theorem countP_counts (d : Dict) (c : Command) {p q r : Hook → Bool → Bool}
    (h : ∀ hook isRequest, (r hook isRequest).toNat = (p hook isRequest).toNat + (q hook isRequest).toNat)
    (calls : List Call) :
    calls.countP (d.counts c r) = calls.countP (d.counts c p) + calls.countP (d.counts c q) := by
  induction calls with
  | nil => rfl
  | cons call calls ih =>
    have hcall : (d.counts c r call).toNat = (d.counts c p call).toNat + (d.counts c q call).toNat := by
      rw [counts, counts, counts]
      cases call.hdr with
      | none => rfl
      | some hdr =>
        simp only [Option.any_some]
        cases d.isOf c hdr with
        | true => exact h call.hook hdr.isRequest
        | false => rfl
    have hcons : ∀ p, (call :: calls).countP (d.counts c p) =
        calls.countP (d.counts c p) + (d.counts c p call).toNat := by
      intro p
      rw [List.countP_cons]
      cases d.counts c p call <;> rfl
    rw [hcons, hcons, hcons, ih, hcall]
    omega

end Dict

/-! ### The counters -/

/-- The HSS sends the requests. -/
def Command.ours : Command → Bool
  | .idr | .rir => true
  | _ => false

/-- The counter of a kind of attempt. -/
def StatCollector.counter (s : StatCollector) : StatAttempType → UInt32
  | .sent => s.m_attemps_sent
  | .sentKo => s.m_sent_ko
  | .received => s.m_attemps_recv
  | .receivedKo => s.m_recv_ko

/-- The attempts among the events. -/
def attempts (log : List Event) : List (StatType × StatAttempType) :=
  log.filterMap fun e => match e with
    | .attemp type attempType => some (type, attempType)
    | _ => none

/-- The counter of a command after a run. -/
def counted (log : List Event) (c : Command) (a : StatAttempType) : Nat :=
  (((StatsHss.run log).collector c).counter a).toNat

theorem count_given (log : List Event) (c : Command) (a : StatAttempType) :
    (given c log).count (.attempt a) = (attempts log).count (c.type, a) := by
  rw [given, attempts, List.count_filterMap, List.count_filterMap]
  refine List.countP_congr fun e _ => ?_
  cases e with
  | attemp type attempType =>
    simp only [givenOp, ownOp, beq_iff_eq, Option.some.injEq, Prod.mk.injEq]
    split
    case isTrue htype => simp [htype]
    case isFalse htype => simp [htype]
  | result type code =>
    simp only [givenOp, ownOp, beq_iff_eq]
    split <;> simp
  | ria ans =>
    simp only [givenOp, beq_iff_eq]
    split <;> simp
  | ida ans =>
    simp only [givenOp, ownOp, beq_iff_eq]
    split <;> simp

theorem counted_eq {log : List Event} (hlen : log.length < 2 ^ 32) (c : Command)
    (a : StatAttempType) : counted log c a = (attempts log).count (c.type, a) := by
  have hgiven := Nat.lt_of_le_of_lt (length_given c log) hlen
  have hcollector := collector_run c log
  rw [← count_given, counted]
  cases a with
  | sent =>
    rw [StatCollector.counter, hcollector.sent]
    exact toNat_count hgiven _
  | sentKo =>
    rw [StatCollector.counter, hcollector.sentKo]
    exact toNat_count hgiven _
  | received =>
    rw [StatCollector.counter, hcollector.received]
    exact toNat_count hgiven _
  | receivedKo =>
    rw [StatCollector.counter, hcollector.receivedKo]
    exact toNat_count hgiven _

variable {d : Dict} {calls : List Call} {log : List Event}

theorem counted_counts (hd : d.Distinct) (hlog : attempts log = calls.filterMap d.registers)
    (hlen : log.length < 2 ^ 32) (c : Command) (a : StatAttempType) :
    counted log c a =
      calls.countP (d.counts c fun hook isRequest => c.attempt hook isRequest = a) := by
  rw [counted_eq hlen, hlog, List.count_filterMap]
  refine List.countP_congr fun call _ => ?_
  rw [beq_iff_eq, Dict.registers_counts hd]

/-- **What the hooks have counted**, whatever else was registered between their calls. -/
theorem attempts_of_hooks (d : Dict) (hd : d.Distinct) (calls : List Call) (log : List Event)
    (hlog : attempts log = calls.filterMap d.registers) (hlen : log.length < 2 ^ 32) (c : Command) :
    counted log c .sent + counted log c .sentKo + (counted log c .received + counted log c .receivedKo) =
        calls.countP (d.counts c fun _ _ => true) ∧
      counted log c .received + counted log c .receivedKo =
        calls.countP (d.counts c fun hook isRequest =>
          isRequest = if c = .idr then decide (hook = .ok) else !c.ours) ∧
      counted log c .sent + counted log c .received =
        calls.countP (d.counts c fun hook _ => c ≠ .srr ∧ hook = .ok) := by
  have hall : ∀ hook isRequest, (true : Bool).toNat =
      (decide (c.attempt hook isRequest = .sent ∨ c.attempt hook isRequest = .sentKo)).toNat +
        (decide (c.attempt hook isRequest = .received ∨
          c.attempt hook isRequest = .receivedKo)).toNat := by
    intro hook isRequest
    cases c.attempt hook isRequest <;> rfl
  have htwo : ∀ a b : StatAttempType, a ≠ b → ∀ hook isRequest,
      (decide (c.attempt hook isRequest = a ∨ c.attempt hook isRequest = b)).toNat =
        (decide (c.attempt hook isRequest = a)).toNat +
          (decide (c.attempt hook isRequest = b)).toNat := by
    intro a b hab hook isRequest
    by_cases ha : c.attempt hook isRequest = a
    · simp [ha, hab]
    · simp [ha]
  simp only [counted_counts hd hlog hlen]
  refine ⟨?_, ?_, ?_⟩
  · rw [Dict.countP_counts d c hall, Dict.countP_counts d c (htwo .sent .sentKo (by decide)),
      Dict.countP_counts d c (htwo .received .receivedKo (by decide))]
  · rw [← Dict.countP_counts d c]
    intro hook isRequest
    cases c <;> cases hook <;> cases isRequest <;> rfl
  · rw [← Dict.countP_counts d c]
    intro hook isRequest
    cases c <;> cases hook <;> cases isRequest <;> rfl

/-- The codes of the dictionaries of freeDiameter. -/
def sampleCode : Command → Nat
  | .air => 318
  | .ulr => 316
  | .pur => 321
  | .idr => 319
  | .cir => 8388718
  | .rir => 8388719
  | .nir => 8388726
  | .srr => 8388647

def sampleDict : Dict := ⟨16777251, 16777345, 16777312, fun c _ => sampleCode c⟩

theorem sampleCode_inj {c c' : Command} (h : sampleCode c = sampleCode c') : c = c' := by
  cases c <;> cases c' <;> first | rfl | exact absurd h (by decide)

theorem distinct_sampleDict : sampleDict.Distinct :=
  ⟨by decide, by decide, by decide, fun _ _ _ => sampleCode_inj⟩

/-- An Insert-Subscriber-Data-Request is sent, and the result of another command comes in between. -/
theorem attempts_of_hooks_idr :
    counted [.result .ulr (0, 2001), .attemp .idr .received] .idr .sent +
          counted [.result .ulr (0, 2001), .attemp .idr .received] .idr .sentKo +
        (counted [.result .ulr (0, 2001), .attemp .idr .received] .idr .received +
          counted [.result .ulr (0, 2001), .attemp .idr .received] .idr .receivedKo) =
        [⟨.ok, some ⟨16777251, 319, true⟩⟩].countP (sampleDict.counts .idr fun _ _ => true) ∧
      counted [.result .ulr (0, 2001), .attemp .idr .received] .idr .received +
          counted [.result .ulr (0, 2001), .attemp .idr .received] .idr .receivedKo =
        [⟨.ok, some ⟨16777251, 319, true⟩⟩].countP (sampleDict.counts .idr fun hook isRequest =>
          isRequest = if Command.idr = .idr then decide (hook = .ok) else !Command.ours .idr) ∧
      counted [.result .ulr (0, 2001), .attemp .idr .received] .idr .sent +
          counted [.result .ulr (0, 2001), .attemp .idr .received] .idr .received =
        [⟨.ok, some ⟨16777251, 319, true⟩⟩].countP (sampleDict.counts .idr fun hook _ =>
          Command.idr ≠ .srr ∧ hook = .ok) :=
  attempts_of_hooks sampleDict distinct_sampleDict [⟨.ok, some ⟨16777251, 319, true⟩⟩]
    [.result .ulr (0, 2001), .attemp .idr .received] rfl (by decide) .idr

end OpenairHss.Stats
