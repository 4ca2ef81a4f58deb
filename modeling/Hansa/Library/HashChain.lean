import Mathlib.Data.List.Chain
import Mathlib.Data.List.Infix

/-!
# Chains whose entries name their predecessor

An entry of a hash chain names the entry before it. When that name is unambiguous among the
entries of a history, everything a third party can show that is linked entry by entry, and
made of entries of the history, is a contiguous piece of the history: entries can be cut off
at both ends, and nothing else can be done to them. Where writers may start from an older
entry, what was written is a tree, and an entry still has one history only: whatever is linked
up to it is an end of that history.
-/

section HashChain

variable {σ : Type*}

/-- Every entry has one predecessor at most among the entries of `history`. -/
def OnePredecessor (commits : σ → σ → Prop) (history : List σ) : Prop :=
  ∀ a ∈ history, ∀ a' ∈ history, ∀ b, commits a b → commits a' b → a = a'

/-- Every entry but the first of a linked list has a predecessor in the list. -/
theorem List.IsChain.exists_rel {commits : σ → σ → Prop} {a : σ} {l : List σ}
    (linked : (a :: l).IsChain commits) : ∀ b ∈ l, ∃ x ∈ a :: l, commits x b := by
  induction l generalizing a with
  | nil => exact fun _ absent => nomatch absent
  | cons b l ih =>
    obtain ⟨step, rest⟩ := List.isChain_cons_cons.mp linked
    intro y member
    rcases List.mem_cons.mp member with rfl | member
    · exact ⟨a, List.mem_cons_self, step⟩
    · obtain ⟨x, inside, joint⟩ := ih rest y member
      exact ⟨x, List.mem_cons_of_mem a inside, joint⟩

/-- A linked list of entries of a linked history, of which only the first entry may open the
history, is a contiguous piece of the history. -/
theorem OnePredecessor.infix {commits : σ → σ → Prop} {history presented : List σ}
    (one : OnePredecessor commits history) (linked : history.IsChain commits)
    (chain : presented.IsChain commits) (known : ∀ x ∈ presented, x ∈ history)
    (inner : ∀ x ∈ presented.tail, x ∉ history.head?) : presented <:+: history := by
  induction presented with
  | nil => exact List.nil_infix
  | cons a presented ih =>
    cases presented with
    | nil =>
      obtain ⟨before, after, rfl⟩ := List.mem_iff_append.mp (known a List.mem_cons_self)
      exact ⟨before, after, by simp⟩
    | cons b presented =>
      obtain ⟨step, rest⟩ := List.isChain_cons_cons.mp chain
      obtain ⟨before, after, rfl⟩ := ih rest
        (fun x member => known x (List.mem_cons_of_mem a member))
        (fun x member => inner x (List.mem_cons_of_mem b member))
      cases before using List.reverseRecOn with
      | nil => exact absurd rfl (inner b List.mem_cons_self)
      | append_singleton before x =>
        have joint : commits x b := by
          rw [List.append_assoc, List.append_assoc] at linked
          have tail := (List.isChain_append.mp linked).2.1
          exact (List.isChain_cons_cons.mp tail).1
        obtain rfl : x = a :=
          one x (by simp) a (known a List.mem_cons_self) b joint step
        exact ⟨before, after, by simp⟩

/-- Two linked lists of known entries that end alike: the one that may not reach beyond the
other's first entry is an end of the other. -/
theorem OnePredecessor.suffix {commits : σ → σ → Prop} {known history presented : List σ}
    (one : OnePredecessor commits known) (linked : history.IsChain commits)
    (chain : presented.IsChain commits) (fromKnown : ∀ x ∈ history, x ∈ known)
    (shown : ∀ x ∈ presented, x ∈ known) (same : presented.getLast? = history.getLast?)
    (inner : ∀ x ∈ presented.tail, x ∉ history.head?) : presented <:+ history := by
  induction presented using List.reverseRecOn generalizing history with
  | nil => exact List.nil_suffix
  | append_singleton presented b ih =>
    rw [List.getLast?_concat] at same
    obtain ⟨earlier, rfl⟩ := List.getLast?_eq_some_iff.mp same.symm
    obtain ⟨linked', -, joint⟩ := List.isChain_append.mp linked
    obtain ⟨chain', -, joint'⟩ := List.isChain_append.mp chain
    rw [List.suffix_append_inj_of_length_eq rfl, and_iff_left rfl]
    cases last : presented.getLast? with
    | none =>
      rw [List.getLast?_eq_none_iff.mp last]
      exact List.nil_suffix
    | some a =>
      obtain ⟨before, rfl⟩ := List.getLast?_eq_some_iff.mp last
      have later : b ∈ (before ++ [a] ++ [b]).tail := by
        have nonempty : before ++ [a] ≠ [] :=
          List.append_ne_nil_of_right_ne_nil _ (List.cons_ne_nil _ _)
        rw [List.tail_append_of_ne_nil nonempty]
        exact List.mem_append_right _ List.mem_cons_self
      cases earlierLast : earlier.getLast? with
      | none =>
        rw [List.getLast?_eq_none_iff.mp earlierLast] at inner
        exact absurd rfl (inner b later)
      | some a' =>
        obtain ⟨before', rfl⟩ := List.getLast?_eq_some_iff.mp earlierLast
        have agree : a = a' := one a (shown a (by simp)) a' (fromKnown a' (by simp)) b
          (joint' a last b rfl) (joint a' earlierLast b rfl)
        refine ih linked' chain' (fun x member => fromKnown x (List.mem_append_left _ member))
          (fun x member => shown x (List.mem_append_left _ member)) ?_ ?_
        · rw [last, earlierLast, agree]
        · intro x member opening
          refine inner x ?_ ?_
          · rw [List.tail_append_of_ne_nil (List.append_ne_nil_of_right_ne_nil _
              (List.cons_ne_nil _ _))]
            exact List.mem_append_left _ member
          · rw [List.head?_append, Option.mem_def.mp opening]
            rfl

end HashChain
