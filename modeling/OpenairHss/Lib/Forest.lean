import Mathlib.Logic.Function.Basic
import Mathlib.Data.BitVec
import Mathlib.Data.UInt

/-!
# Trees of objects

A store of objects that have data and, in order, children.  What is in the store is a `View`: the data
of the objects that there are, their children and parents.

`Holds` says that the object at a reference is the root of a tree, and `Appended` that new trees have
been put behind the children of an object while nothing else was changed.  `Appended.adopt` builds one
tree from the trees below it, and `Appended.trans` puts one after the other.
-/

namespace Forest

/-- A tree with data at its nodes. -/
inductive Tree (D : Type) where
  | node (d : D) (children : List (Tree D))

structure View (Ref D : Type) where
  /-- None where there is no object. -/
  data : Ref → Option D
  children : Ref → List Ref
  parent : Ref → Option Ref

variable {Ref D : Type}

namespace View

/-- There is an object. -/
def Live (v : View Ref D) (r : Ref) : Prop := v.data r ≠ none

variable [DecidableEq Ref]

def create (v : View Ref D) (a : Ref) (d : D) : View Ref D where
  data := Function.update v.data a (some d)
  children := Function.update v.children a []
  parent := Function.update v.parent a none

def setData (v : View Ref D) (a : Ref) (d : D) : View Ref D :=
  { v with data := Function.update v.data a (some d) }

/-- An object becomes the last child of another. -/
def append (v : View Ref D) (p a : Ref) : View Ref D where
  data := v.data
  children := Function.update v.children p (v.children p ++ [a])
  parent := Function.update v.parent a (some p)

@[simp] theorem create_data (v : View Ref D) (a : Ref) (d : D) :
    (v.create a d).data = Function.update v.data a (some d) := rfl

@[simp] theorem create_children (v : View Ref D) (a : Ref) (d : D) :
    (v.create a d).children = Function.update v.children a [] := rfl

@[simp] theorem setData_data (v : View Ref D) (a : Ref) (d : D) :
    (v.setData a d).data = Function.update v.data a (some d) := rfl

@[simp] theorem setData_children (v : View Ref D) (a : Ref) (d : D) :
    (v.setData a d).children = v.children := rfl

@[simp] theorem append_data (v : View Ref D) (p a : Ref) : (v.append p a).data = v.data := rfl

@[simp] theorem append_children (v : View Ref D) (p a : Ref) :
    (v.append p a).children = Function.update v.children p (v.children p ++ [a]) := rfl

@[simp] theorem append_parent (v : View Ref D) (p a : Ref) :
    (v.append p a).parent = Function.update v.parent a (some p) := rfl

end View

mutual

/-- At `r` is the tree, all of its objects in `P`. -/
def Holds (v : View Ref D) (P : Ref → Prop) : Ref → Tree D → Prop
  | r, .node d ts => P r ∧ v.data r = some d ∧ HoldsAll v P (v.children r) ts

/-- At these references are the trees. -/
def HoldsAll (v : View Ref D) (P : Ref → Prop) : List Ref → List (Tree D) → Prop
  | [], [] => True
  | r :: rs, t :: ts => Holds v P r t ∧ HoldsAll v P rs ts
  | [], _ :: _ | _ :: _, [] => False

end

/-- All objects are what they were. -/
structure Untouched (v v' : View Ref D) : Prop where
  data : ∀ r, v.Live r → v'.data r = v.data r
  parent : ∀ r, v.Live r → v'.parent r = v.parent r
  children : ∀ r, v.Live r → v'.children r = v.children r

/-- The trees, all of new objects, have become the last children of `p`, and the objects are otherwise
what they were. -/
structure Appended (v v' : View Ref D) (p : Ref) (ts : List (Tree D)) : Prop where
  data : ∀ r, v.Live r → v'.data r = v.data r
  parent : ∀ r, v.Live r → v'.parent r = v.parent r
  children : ∀ r, v.Live r → r ≠ p → v'.children r = v.children r
  appended : ∃ rs, v'.children p = v.children p ++ rs ∧ HoldsAll v' (fun r => ¬ v.Live r) rs ts

/-! ### Trees that are held -/

section Holds

variable {v v' : View Ref D} {P Q : Ref → Prop}

theorem Holds.live {r : Ref} {t : Tree D} (h : Holds v P r t) : v.Live r := by
  cases t with
  | node d ts =>
    rw [Holds] at h
    rw [View.Live, h.2.1]
    exact nofun

mutual

/-- A tree stays where its objects are not changed. -/
theorem Holds.mono (hv : ∀ r, P r → v.Live r → v'.data r = v.data r ∧ v'.children r = v.children r)
    (hPQ : ∀ r, P r → v.Live r → Q r) : ∀ {r : Ref} {t : Tree D}, Holds v P r t → Holds v' Q r t
  | r, .node d ts, h => by
    have hlive : v.Live r := h.live
    rw [Holds] at h ⊢
    obtain ⟨hP, hd, hts⟩ := h
    obtain ⟨hdata, hchildren⟩ := hv r hP hlive
    rw [hdata, hchildren]
    exact ⟨hPQ r hP hlive, hd, HoldsAll.mono hv hPQ hts⟩

theorem HoldsAll.mono
    (hv : ∀ r, P r → v.Live r → v'.data r = v.data r ∧ v'.children r = v.children r)
    (hPQ : ∀ r, P r → v.Live r → Q r) :
    ∀ {rs : List Ref} {ts : List (Tree D)}, HoldsAll v P rs ts → HoldsAll v' Q rs ts
  | [], [], _ => by simp only [HoldsAll]
  | r :: rs, t :: ts, h => by
    rw [HoldsAll] at h ⊢
    exact ⟨Holds.mono hv hPQ h.1, HoldsAll.mono hv hPQ h.2⟩
  | [], t :: ts, h => by
    rw [HoldsAll] at h
    exact h.elim
  | r :: rs, [], h => by
    rw [HoldsAll] at h
    exact h.elim

end

theorem HoldsAll.append {rs rs' : List Ref} {ts ts' : List (Tree D)} (h : HoldsAll v P rs ts)
    (h' : HoldsAll v P rs' ts') : HoldsAll v P (rs ++ rs') (ts ++ ts') := by
  induction rs generalizing ts with
  | nil =>
    cases ts with
    | nil => exact h'
    | cons t ts => exact (by rwa [HoldsAll] at h : False).elim
  | cons r rs ih =>
    cases ts with
    | nil => exact (by rwa [HoldsAll] at h : False).elim
    | cons t ts =>
      rw [HoldsAll] at h
      rw [List.cons_append, List.cons_append, HoldsAll]
      exact ⟨h.1, ih h.2⟩

end Holds

/-! ### What is kept -/

section Kept

variable {v v' v'' : View Ref D} {p : Ref} {ts ts' : List (Tree D)}

theorem Untouched.refl (v : View Ref D) : Untouched v v :=
  ⟨fun _ _ => rfl, fun _ _ => rfl, fun _ _ => rfl⟩

theorem Untouched.live (h : Untouched v v') {r : Ref} (hr : v.Live r) : v'.Live r := by
  rw [View.Live, h.data r hr]
  exact hr

theorem Untouched.trans (h : Untouched v v') (h' : Untouched v' v'') : Untouched v v'' where
  data r hr := by rw [h'.data r (h.live hr), h.data r hr]
  parent r hr := by rw [h'.parent r (h.live hr), h.parent r hr]
  children r hr := by rw [h'.children r (h.live hr), h.children r hr]

theorem Untouched.holds (h : Untouched v v') {P : Ref → Prop} {r : Ref} {t : Tree D}
    (ht : Holds v P r t) : Holds v' P r t :=
  ht.mono (fun r _ hr => ⟨h.data r hr, h.children r hr⟩) fun _ hr _ => hr

theorem Appended.nil (v : View Ref D) (p : Ref) : Appended v v p [] where
  data _ _ := rfl
  parent _ _ := rfl
  children _ _ _ := rfl
  appended := ⟨[], (List.append_nil _).symm, by simp only [HoldsAll]⟩

theorem Untouched.appended (h : Untouched v v') (hp : v.Live p) : Appended v v' p [] where
  data := h.data
  parent := h.parent
  children r hr _ := h.children r hr
  appended := ⟨[], by rw [h.children p hp, List.append_nil], by simp only [HoldsAll]⟩

theorem Appended.live (h : Appended v v' p ts) {r : Ref} (hr : v.Live r) : v'.Live r := by
  rw [View.Live, h.data r hr]
  exact hr

/-- A tree that `p` is not in stays what it was. -/
theorem Appended.holdsAll (h : Appended v v' p ts) {P : Ref → Prop} (hP : ¬ P p) {rs : List Ref}
    {us : List (Tree D)} (hus : HoldsAll v P rs us) : HoldsAll v' P rs us := by
  refine hus.mono (fun r hr hlive => ⟨h.data r hlive, h.children r hlive ?_⟩) fun _ hr _ => hr
  rintro rfl
  exact hP hr

theorem Appended.trans (hp : v.Live p) (h : Appended v v' p ts) (h' : Appended v' v'' p ts') :
    Appended v v'' p (ts ++ ts') := by
  obtain ⟨rs, hrs, hts⟩ := h.appended
  obtain ⟨rs', hrs', hts'⟩ := h'.appended
  refine ⟨fun r hr => ?_, fun r hr => ?_, fun r hr hne => ?_, rs ++ rs', ?_, ?_⟩
  · rw [h'.data r (h.live hr), h.data r hr]
  · rw [h'.parent r (h.live hr), h.parent r hr]
  · rw [h'.children r (h.live hr) hne, h.children r hr hne]
  · rw [hrs', hrs, List.append_assoc]
  · have hold : HoldsAll v'' (fun r => ¬ v.Live r) rs ts := h'.holdsAll (not_not_intro hp) hts
    have hnew : HoldsAll v'' (fun r => ¬ v.Live r) rs' ts' :=
      hts'.mono (fun _ _ _ => ⟨rfl, rfl⟩) fun r hr _ hlive => hr (h.live hlive)
    exact hold.append hnew

end Kept

/-! ### New objects -/

section New

variable {v v' : View Ref D} {a p : Ref} {d : D} {ts : List (Tree D)}

theorem View.Live.ne (ha : ¬ v.Live a) {r : Ref} (hr : v.Live r) : r ≠ a := by
  rintro rfl
  exact ha hr

variable [DecidableEq Ref]

theorem View.create_live (v : View Ref D) (a : Ref) (d : D) : (v.create a d).Live a := by
  rw [Live, create_data, Function.update_self]
  exact nofun

/-- A new object is another one. -/
theorem untouched_create (ha : ¬ v.Live a) (d : D) : Untouched v (v.create a d) where
  data _ hr := Function.update_of_ne (hr.ne ha) ..
  parent _ hr := Function.update_of_ne (hr.ne ha) ..
  children _ hr := Function.update_of_ne (hr.ne ha) ..

theorem untouched_setData (ha : ¬ v.Live a) (d d' : D) :
    Untouched v ((v.create a d').setData a d) where
  data r hr := by
    rw [View.setData_data, Function.update_of_ne (hr.ne ha)]
    exact (untouched_create ha d').data r hr
  parent := (untouched_create ha d').parent
  children := (untouched_create ha d').children

/-- A new object without children. -/
theorem holds_setData (ha : ¬ v.Live a) (d d' : D) :
    Holds ((v.create a d').setData a d) (fun r => ¬ v.Live r) a (.node d []) := by
  rw [Holds, View.setData_data, View.setData_children, View.create_children, Function.update_self,
    Function.update_self]
  exact ⟨ha, rfl, by simp only [HoldsAll]⟩

/-- What is done to a new object is not done to the others. -/
theorem Appended.untouched (ha : ¬ v.Live a) (h : Appended (v.create a d) v' a ts) :
    Untouched v v' := by
  have hnew := untouched_create ha d
  refine ⟨fun r hr => ?_, fun r hr => ?_, fun r hr => ?_⟩
  · rw [h.data r (hnew.live hr), hnew.data r hr]
  · rw [h.parent r (hnew.live hr), hnew.parent r hr]
  · rw [h.children r (hnew.live hr) (hr.ne ha), hnew.children r hr]

/-- A new object with the trees below it. -/
theorem Appended.holds (ha : ¬ v.Live a) (h : Appended (v.create a d) v' a ts) :
    Holds v' (fun r => ¬ v.Live r) a (.node d ts) := by
  obtain ⟨rs, hrs, hts⟩ := h.appended
  have hdata : v'.data a = some d := by
    rw [h.data a (v.create_live a d), View.create_data, Function.update_self]
  have hchildren : v'.children a = rs := by
    rw [hrs, View.create_children, Function.update_self, List.nil_append]
  rw [Holds, hdata, hchildren]
  refine ⟨ha, rfl, hts.mono (fun _ _ _ => ⟨rfl, rfl⟩) fun r hr _ hlive => hr ?_⟩
  exact (untouched_create ha d).live hlive

/-- A tree of new objects is put behind the children of `p`. -/
theorem Appended.adopt {t : Tree D} (hp : v.Live p) (ha : ¬ v.Live a) (h : Untouched v v')
    (ht : Holds v' (fun r => ¬ v.Live r) a t) : Appended v (v'.append p a) p [t] where
  data := h.data
  parent r hr := by
    rw [View.append_parent, Function.update_of_ne (hr.ne ha)]
    exact h.parent r hr
  children r hr hne := by
    rw [View.append_children, Function.update_of_ne hne]
    exact h.children r hr
  appended := by
    refine ⟨[a], ?_, ?_⟩
    · rw [View.append_children, Function.update_self, h.children p hp]
    · have hkept : ∀ r, ¬ v.Live r → (v'.append p a).children r = v'.children r := by
        intro r hr
        rw [View.append_children, Function.update_of_ne (hp.ne hr).symm]
      rw [HoldsAll]
      exact ⟨ht.mono (fun r hr _ => ⟨by rw [View.append_data], hkept r hr⟩) fun _ hr _ => hr,
        by simp only [HoldsAll]⟩

end New

end Forest
