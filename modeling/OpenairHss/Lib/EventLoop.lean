import OpenairHss.Lib.Steps

/-!
# A thread with a queue of messages

The owner of the queue handles one message after the other.  Any number of threads post messages, and
so does the owner while it handles one.  What a message is handled with, beside the state of the owner,
is the input of the step.

* `owner_run`: the owner is in the state that the messages it has handled lead to.
* `posted_prefix`: a message keeps its place among those that were posted.
* `running_before`: the owner was running whenever it has handled a message.
* `observed_snoc`: what is seen at a message depends on those in front of it only.
-/

namespace EventLoop

open Steps

/-- How the owner handles a message, what it posts then, when it still handles messages, and which
messages the others can post. -/
structure Loop (σ μ ι : Type) where
  handle : σ → ι → μ → σ
  posts : σ → ι → μ → List μ
  running : σ → Bool
  admits : σ → μ → Bool

/-- The owner, the messages that wait, and those that it has handled, with their inputs. -/
structure Mailbox (σ μ ι : Type) where
  owner : σ
  queue : List μ
  handled : List (ι × μ)

inductive Act (μ ι : Type)
  | post (m : μ)
  | dispatch (i : ι)

variable {σ μ ι : Type} {l : Loop σ μ ι} {o : σ} {s t : Mailbox σ μ ι}

namespace Mailbox

def new (o : σ) : Mailbox σ μ ι := ⟨o, [], []⟩

/-- All messages, in the order in which they were posted. -/
def posted (s : Mailbox σ μ ι) : List μ := s.handled.map (·.2) ++ s.queue

end Mailbox

namespace Loop

def exec (l : Loop σ μ ι) (s : Mailbox σ μ ι) : Act μ ι → Option (Mailbox σ μ ι)
  | .post m => if l.admits s.owner m then some { s with queue := s.queue ++ [m] } else none
  | .dispatch i =>
    match s.queue with
    | [] => none
    | m :: rest =>
      if l.running s.owner then
        some ⟨l.handle s.owner i m, rest ++ l.posts s.owner i m, s.handled ++ [(i, m)]⟩
      else none

/-- All interleavings. -/
abbrev Runs (l : Loop σ μ ι) : Mailbox σ μ ι → Mailbox σ μ ι → Prop :=
  Reaches (fun s a t => l.exec s a = some t) fun _ _ => True

/-- The owner after it has handled these messages. -/
def after (l : Loop σ μ ι) (o : σ) (hs : List (ι × μ)) : σ :=
  hs.foldl (fun o h => l.handle o h.1 h.2) o

theorem after_snoc (hs : List (ι × μ)) (h : ι × μ) :
    l.after o (hs ++ [h]) = l.handle (l.after o hs) h.1 h.2 := List.foldl_append

/-- What one step does. -/
theorem exec_cases {a : Act μ ι} (h : l.exec s a = some t) :
    (∃ m, l.admits s.owner m = true ∧ t = { s with queue := s.queue ++ [m] }) ∨
      ∃ i m rest, s.queue = m :: rest ∧ l.running s.owner = true ∧
        t = ⟨l.handle s.owner i m, rest ++ l.posts s.owner i m, s.handled ++ [(i, m)]⟩ := by
  cases a with
  | post m =>
    obtain ⟨hm, ht⟩ := Option.ite_none_right_eq_some.mp h
    exact Or.inl ⟨m, hm, (Option.some.inj ht).symm⟩
  | dispatch i =>
    rw [exec] at h
    split at h
    · exact absurd h (by simp)
    · next m rest hqueue =>
      obtain ⟨hrun, ht⟩ := Option.ite_none_right_eq_some.mp h
      exact Or.inr ⟨i, m, rest, hqueue, hrun, (Option.some.inj ht).symm⟩

theorem owner_run (h : l.Runs (.new o) s) : s.owner = l.after o s.handled := by
  refine h.invariant (I := fun s => s.owner = l.after o s.handled) rfl ?_
  rintro s a t hs - ht
  rcases exec_cases ht with ⟨m, -, rfl⟩ | ⟨i, m, rest, -, -, rfl⟩
  · exact hs
  · show l.handle s.owner i m = l.after o (s.handled ++ [(i, m)])
    rw [after_snoc, hs]

theorem posted_prefix (h : l.Runs s t) : s.posted <+: t.posted := by
  refine h.invariant (I := fun u => s.posted <+: u.posted) (List.prefix_refl _) ?_
  rintro u a v hu - hv
  refine hu.trans ?_
  rcases exec_cases hv with ⟨m, -, rfl⟩ | ⟨i, m, rest, hqueue, -, rfl⟩
  · exact ⟨[m], List.append_assoc _ _ _⟩
  · refine ⟨l.posts u.owner i m, ?_⟩
    simp only [Mailbox.posted, hqueue, List.map_append, List.map_cons, List.map_nil,
      List.append_assoc, List.cons_append, List.nil_append]

theorem running_before (h : l.Runs (.new o) s) {hs : List (ι × μ)} {x : ι × μ}
    (hx : hs ++ [x] <+: s.handled) : l.running (l.after o hs) = true := by
  have hinv := h.invariant (I := fun s => l.Runs (.new o) s ∧
    ∀ hs x, hs ++ [x] <+: s.handled → l.running (l.after o hs) = true)
  refine (hinv ⟨Reaches.refl _, fun hs x hx => ?_⟩ ?_).2 hs x hx
  · exact absurd (List.prefix_nil.mp hx) (by simp)
  · rintro s a t ⟨hs, hrun⟩ - ht
    refine ⟨hs.tail trivial ht, fun us x hx => ?_⟩
    rcases exec_cases ht with ⟨m, -, rfl⟩ | ⟨i, m, rest, -, howner, rfl⟩
    · exact hrun us x hx
    · rcases List.prefix_concat_iff.mp hx with hx | hx
      · obtain rfl := (List.append_inj' hx rfl).1
        rw [← owner_run hs]
        exact howner
      · exact hrun us x hx

end Loop

/-! ### What is seen at a message -/

variable {α β : Type} {f : List α → α → Option β}

/-- What `f` sees at each element, given those in front of it. -/
def observed (f : List α → α → Option β) (hs : List α) : List β :=
  (List.range hs.length).filterMap fun k => hs[k]?.bind (f (hs.take k))

theorem observed_snoc (hs : List α) (h : α) :
    observed f (hs ++ [h]) = observed f hs ++ (f hs h).toList := by
  have hold : (List.range hs.length).filterMap
      (fun k => (hs ++ [h])[k]?.bind (f ((hs ++ [h]).take k))) = observed f hs := by
    refine List.filterMap_congr fun k hk => ?_
    have hlt := List.mem_range.mp hk
    rw [List.getElem?_append_left hlt, List.take_append_of_le_length (Nat.le_of_lt hlt)]
  rw [observed, List.length_append, List.length_singleton, List.range_succ, List.filterMap_append,
    hold]
  simp [List.filterMap_cons]
  cases f hs h <;> rfl

end EventLoop
