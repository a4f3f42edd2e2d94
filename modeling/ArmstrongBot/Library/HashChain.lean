import Mathlib.Data.List.Basic
import Mathlib.Data.List.Forall2
import Mathlib.Data.List.Induction
import Mathlib.Order.Basic

/-! Chains of entries that carry their position, the hash of the entry before them and their
own hash, over any type of entry and of hash. -/

namespace HashChain

/-- What a chain reads of an entry. `recomputed` is the hash that the entry's content, position
and link give; `hash` is the one it stores. -/
structure Shape (ε η : Type*) where
  seq : ε → Int
  previous : ε → Option η
  hash : ε → η
  recomputed : ε → η

variable {ε η : Type*} (shape : Shape ε η)

/-- The entries follow one another from a position and a link on. -/
def Linked : Option η → Int → List ε → Prop
  | _, _, [] => True
  | link, position, entry :: rest =>
      shape.seq entry = position ∧ shape.previous entry = link ∧
        shape.recomputed entry = shape.hash entry ∧
        Linked (some (shape.hash entry)) (position + 1) rest

def tip (link : Option η) (entries : List ε) : Option η :=
  match entries.getLast? with
  | none => link
  | some entry => some (shape.hash entry)

@[simp] theorem tip_nil (link : Option η) : tip shape link [] = link := rfl

@[simp] theorem tip_snoc (link : Option η) (entries : List ε) (entry : ε) :
    tip shape link (entries ++ [entry]) = some (shape.hash entry) := by
  simp [tip]

theorem tip_cons (link : Option η) (entry : ε) (rest : List ε) :
    tip shape link (entry :: rest) = tip shape (some (shape.hash entry)) rest := by
  cases rest with
  | nil => rfl
  | cons next rest => simp [tip, List.getLast?_cons]

theorem linked_append (link : Option η) (position : Int) (front back : List ε) :
    Linked shape link position (front ++ back) ↔
      Linked shape link position front ∧
        Linked shape (tip shape link front) (position + front.length) back := by
  induction front generalizing link position with
  | nil => simp [Linked]
  | cons entry rest ih =>
      have shifted : position + 1 + (rest.length : Int) = position + ((entry :: rest).length : Nat) := by
        simp only [List.length_cons]
        omega
      simp only [List.cons_append, Linked, ih, tip_cons, shifted, and_assoc]

theorem linked_snoc (link : Option η) (position : Int) (entries : List ε) (entry : ε) :
    Linked shape link position (entries ++ [entry]) ↔
      Linked shape link position entries ∧ shape.seq entry = position + entries.length ∧
        shape.previous entry = tip shape link entries ∧
        shape.recomputed entry = shape.hash entry := by
  rw [linked_append]
  simp [Linked]

theorem Linked.seq_bounds {link : Option η} {position : Int} {entries : List ε}
    (linked : Linked shape link position entries) {entry : ε} (member : entry ∈ entries) :
    position ≤ shape.seq entry ∧ shape.seq entry < position + entries.length := by
  induction entries generalizing link position with
  | nil => simp at member
  | cons first rest ih =>
      obtain ⟨seqEq, _, _, tail⟩ := linked
      simp only [List.length_cons]
      rcases List.mem_cons.mp member with same | later
      · subst entry
        omega
      · have bounds := ih tail later
        omega

theorem Linked.exists_seq {link : Option η} {position : Int} {entries : List ε}
    (linked : Linked shape link position entries) {seq : Int} (lower : position ≤ seq)
    (upper : seq < position + entries.length) : ∃ entry ∈ entries, shape.seq entry = seq := by
  induction entries generalizing link position with
  | nil =>
      simp only [List.length_nil] at upper
      omega
  | cons first rest ih =>
      obtain ⟨seqEq, _, _, tail⟩ := linked
      by_cases here : seq = position
      · exact ⟨first, List.mem_cons_self, seqEq.trans here.symm⟩
      · simp only [List.length_cons] at upper
        obtain ⟨entry, member, found⟩ := ih tail (by omega) (by omega)
        exact ⟨entry, List.mem_cons_of_mem _ member, found⟩

theorem Linked.previous_eq {link : Option η} {position : Int} {entries : List ε}
    (linked : Linked shape link position entries) {before entry : ε} (beforeMember : before ∈ entries)
    (member : entry ∈ entries) (follows : shape.seq entry = shape.seq before + 1) :
    shape.previous entry = some (shape.hash before) := by
  induction entries generalizing link position with
  | nil => simp at member
  | cons first rest ih =>
      obtain ⟨seqEq, _, _, tail⟩ := linked
      rcases List.mem_cons.mp beforeMember with isFirst | beforeLater
      · subst before
        rcases List.mem_cons.mp member with same | later
        · subst entry
          omega
        · cases rest with
          | nil => simp at later
          | cons second others =>
              rcases List.mem_cons.mp later with isSecond | further
              · rw [isSecond]
                exact tail.2.1
              · have bounds := tail.2.2.2.seq_bounds shape further
                omega
      · rcases List.mem_cons.mp member with same | later
        · subst entry
          have bounds := tail.seq_bounds shape beforeLater
          omega
        · exact ih tail beforeLater later

theorem filter_above {link : Option η} {position : Int} {front back : List ε}
    (linked : Linked shape link position (front ++ back)) :
    (front ++ back).filter (fun entry => decide (position + front.length - 1 < shape.seq entry)) =
      back := by
  obtain ⟨early, later⟩ := (linked_append shape link position front back).mp linked
  rw [List.filter_append, List.filter_eq_nil_iff.mpr, List.filter_eq_self.mpr, List.nil_append]
  · intro entry member
    have bounds := later.seq_bounds shape member
    simp only [decide_eq_true_eq]
    omega
  · intro entry member
    have bounds := early.seq_bounds shape member
    simp only [decide_eq_true_eq]
    omega

theorem filter_upTo {link : Option η} {position : Int} {front back : List ε}
    (linked : Linked shape link position (front ++ back)) :
    (front ++ back).filter (fun entry => decide (shape.seq entry ≤ position + front.length - 1)) =
      front := by
  obtain ⟨early, later⟩ := (linked_append shape link position front back).mp linked
  rw [List.filter_append, List.filter_eq_self.mpr, List.filter_eq_nil_iff.mpr, List.append_nil]
  · intro entry member
    have bounds := later.seq_bounds shape member
    simp only [decide_eq_true_eq]
    omega
  · intro entry member
    have bounds := early.seq_bounds shape member
    simp only [decide_eq_true_eq]
    omega

theorem Linked.cut {link : Option η} {position : Int} {entries : List ε}
    (linked : Linked shape link position entries) {entry : ε} (member : entry ∈ entries) :
    entry ∈ entries.filter (fun other => decide (shape.seq other ≤ shape.seq entry)) ∧
      Linked shape (some (shape.hash entry)) (shape.seq entry + 1)
        (entries.filter fun other => decide (shape.seq entry < shape.seq other)) := by
  obtain ⟨front, back, rfl⟩ := List.append_of_mem member
  rw [List.append_cons] at linked
  obtain ⟨early, later⟩ := (linked_append shape link position (front ++ [entry]) back).mp linked
  have entrySeq : shape.seq entry = position + (front ++ [entry]).length - 1 := by
    have seqEq := ((linked_snoc shape link position front entry).mp early).2.1
    simp only [List.length_append, List.length_singleton]
    omega
  have behind : position + (front ++ [entry]).length = shape.seq entry + 1 := by omega
  rw [tip_snoc, behind] at later
  rw [List.append_cons, entrySeq, filter_upTo shape linked, filter_above shape linked]
  exact ⟨by simp, by rw [← entrySeq]; exact later⟩

theorem Linked.increasing {link : Option η} {position : Int} {entries : List ε}
    (linked : Linked shape link position entries) :
    entries.Pairwise fun first second => shape.seq first < shape.seq second := by
  induction entries generalizing link position with
  | nil => exact List.Pairwise.nil
  | cons first rest ih =>
      obtain ⟨seqEq, _, _, tail⟩ := linked
      refine List.Pairwise.cons ?_ (ih tail)
      intro entry member
      have bounds := tail.seq_bounds shape member
      omega

theorem Linked.seq_last {link : Option η} {position : Int} {entries : List ε}
    (linked : Linked shape link position entries) {last : ε}
    (isLast : entries.getLast? = some last) :
    shape.seq last = position + entries.length - 1 := by
  obtain ⟨front, rfl⟩ := List.getLast?_eq_some_iff.mp isLast
  have seqEq := ((linked_snoc shape link position front last).mp linked).2.1
  simp only [List.length_append, List.length_singleton]
  omega

/-- Two chains of one length that end in one hash agree entry by entry, as far as equal
recomputed hashes make two of their entries agree. -/
theorem history_determined {agrees : ε → ε → Prop} {leftLink rightLink : Option η}
    {leftPosition rightPosition : Int} {left right : List ε}
    (leftLinked : Linked shape leftLink leftPosition left)
    (rightLinked : Linked shape rightLink rightPosition right)
    (faithful : ∀ first ∈ left, ∀ second ∈ right,
      shape.recomputed first = shape.recomputed second →
        agrees first second ∧ shape.previous first = shape.previous second)
    (length : left.length = right.length)
    (head : left.getLast?.map shape.hash = right.getLast?.map shape.hash) :
    List.Forall₂ agrees left right := by
  induction left using List.reverseRecOn generalizing right with
  | nil =>
      have empty : right = [] := by simpa using length.symm
      simp [empty]
  | append_singleton leftFront leftLast ih =>
      obtain rfl | ⟨rightFront, rightLast, rfl⟩ := List.eq_nil_or_concat' right
      · simp at length
      · simp only [List.length_append, List.length_singleton] at length
        have leftParts := (linked_snoc shape _ _ _ _).mp leftLinked
        have rightParts := (linked_snoc shape _ _ _ _).mp rightLinked
        have lastHash : shape.hash leftLast = shape.hash rightLast := by simpa using head
        have lastAgrees := faithful leftLast (by simp) rightLast (by simp) (by
          rw [leftParts.2.2.2, rightParts.2.2.2, lastHash])
        have frontLength : leftFront.length = rightFront.length := by omega
        have frontHead : leftFront.getLast?.map shape.hash = rightFront.getLast?.map shape.hash := by
          have links := lastAgrees.2
          rw [leftParts.2.2.1, rightParts.2.2.1] at links
          cases leftEnd : leftFront.getLast? with
          | none =>
              have leftEmpty : leftFront = [] := List.getLast?_eq_none_iff.mp leftEnd
              have rightEmpty : rightFront = [] := by simpa [leftEmpty] using frontLength.symm
              simp [rightEmpty]
          | some leftEntry =>
              cases rightEnd : rightFront.getLast? with
              | none =>
                  have rightEmpty : rightFront = [] := List.getLast?_eq_none_iff.mp rightEnd
                  have leftEmpty : leftFront = [] := by simpa [rightEmpty] using frontLength
                  simp [leftEmpty] at leftEnd
              | some rightEntry => simpa [tip, leftEnd, rightEnd] using links
        refine List.rel_append (ih leftParts.1 rightParts.1 ?_ frontLength frontHead) ?_
        · intro first firstMember second secondMember
          exact faithful first (by simp [firstMember]) second (by simp [secondMember])
        · exact List.Forall₂.cons lastAgrees.1 List.Forall₂.nil

end HashChain
