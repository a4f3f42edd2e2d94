import Mathlib.Data.List.Forall2
import Mathlib.Data.List.Induction
import Mathlib.Data.List.Nodup
import Mathlib.Logic.Function.Basic

/-! Doubly linked lists with a head and a tail. A node is known by its reference; what hangs on
it is kept elsewhere. -/

structure LinkedList (ρ : Type*) where
  prev : ρ → Option ρ
  next : ρ → Option ρ
  head : Option ρ
  tail : Option ρ

namespace LinkedList

variable {ρ : Type*}

def empty : LinkedList ρ :=
  { prev := fun _ => none, next := fun _ => none, head := none, tail := none }

/-- The links run through exactly these nodes, once each: every node points back to the one
before it and forward to the one after it. -/
structure Threads (links : LinkedList ρ) (order : List ρ) : Prop where
  nodup : order.Nodup
  head : links.head = order.head?
  tail : links.tail = order.getLast?
  prev : ∀ front node back, order = front ++ node :: back → links.prev node = front.getLast?
  next : ∀ front node back, order = front ++ node :: back → links.next node = back.head?

theorem threads_empty : Threads (empty : LinkedList ρ) [] where
  nodup := List.nodup_nil
  head := rfl
  tail := rfl
  prev := by simp
  next := by simp

variable {links : LinkedList ρ} {node other : ρ} {order front back mid : List ρ}

theorem last_eq (distinct : (front ++ node :: mid).Nodup) :
    (front ++ node :: mid).getLast? = some node ↔ mid = [] := by
  constructor
  · intro isLast
    cases mid with
    | nil => rfl
    | cons first rest =>
        have later : node ∈ first :: rest := by
          rw [List.getLast?_append_cons, List.getLast?_cons_cons] at isLast
          exact List.mem_of_getLast? isLast
        have apart := (List.nodup_append.mp distinct).2.1
        exact absurd later (List.nodup_cons.mp apart).1
  · rintro rfl
    simp

theorem first_eq (distinct : (mid ++ node :: back).Nodup) :
    (mid ++ node :: back).head? = some node ↔ mid = [] := by
  constructor
  · intro isFirst
    cases mid with
    | nil => rfl
    | cons first rest =>
        obtain rfl : first = node := by simpa using isFirst
        simp at distinct
  · rintro rfl
    rfl

theorem split_append {before after : List ρ} (split : front ++ back = before ++ node :: after) :
    (∃ mid, front = before ++ node :: mid ∧ after = mid ++ back) ∨
      ∃ mid, back = mid ++ node :: after ∧ before = front ++ mid := by
  rcases List.append_eq_append_iff.mp split with ⟨mid, rfl, rfl⟩ | ⟨mid, rfl, rest⟩
  · exact .inr ⟨mid, rfl, rfl⟩
  · cases mid with
    | nil => exact .inr ⟨[], rest.symm, by simp⟩
    | cons first mid =>
        obtain ⟨rfl, rfl⟩ := List.cons.inj rest
        exact .inl ⟨mid, rfl, rfl⟩

theorem Threads.ne_of_mem (threads : Threads links (front ++ node :: back))
    (member : other ∈ front ++ back) : other ≠ node := by
  rintro rfl
  exact (List.nodup_cons.mp (List.nodup_middle.mp threads.nodup)).1 member

theorem Threads.not_mem_back (threads : Threads links (front ++ node :: back))
    (member : other ∈ front) : other ∉ back := by
  intro later
  have distinct := (List.nodup_cons.mp (List.nodup_middle.mp threads.nodup)).2
  exact (List.nodup_append.mp distinct).2.2 other member other later rfl

/-- The nodes of the list hold these items, in this order. -/
structure Carries {α : Type*} (links : LinkedList ρ) (holds : ρ → α → Prop) (order : List ρ)
    (items : List α) : Prop where
  threads : Threads links order
  held : List.Forall₂ holds order items

section Items

variable {α : Type*} {holds later : ρ → α → Prop} {items : List α}

theorem forall₂_filter {kept : ρ → Bool} {keep : α → Bool} (held : List.Forall₂ holds order items)
    (agree : ∀ node item, holds node item → kept node = keep item)
    (stays : ∀ node item, holds node item → keep item = true → later node item) :
    List.Forall₂ later (order.filter kept) (items.filter keep) := by
  induction held with
  | nil => exact .nil
  | @cons node item _ _ first _ ih =>
      rw [List.filter_cons, List.filter_cons, agree node item first]
      by_cases keeps : keep item = true
      · rw [if_pos keeps, if_pos keeps]
        exact .cons (stays node item first keeps) ih
      · rw [if_neg keeps, if_neg keeps]
        exact ih

theorem forall₂_getLast? (held : List.Forall₂ holds order items) :
    Option.Rel holds order.getLast? items.getLast? := by
  induction held with
  | nil => exact .none
  | @cons node item nodes items first _ ih =>
      rw [List.getLast?_cons, List.getLast?_cons]
      generalize nodes.getLast? = lastNode, items.getLast? = lastItem at ih
      cases ih with
      | none => exact .some first
      | some last => exact .some last

theorem forall₂_mem (held : List.Forall₂ holds order items) {item : α} (member : item ∈ items) :
    ∃ node ∈ order, holds node item := by
  induction held with
  | nil => cases member
  | cons first _ ih =>
      rcases List.mem_cons.mp member with rfl | later
      · exact ⟨_, List.mem_cons_self, first⟩
      · obtain ⟨node, isNode, holdsIt⟩ := ih later
        exact ⟨node, List.mem_cons_of_mem _ isNode, holdsIt⟩

end Items

variable [DecidableEq ρ]

def setPrev (links : LinkedList ρ) (node : ρ) (before : Option ρ) : LinkedList ρ :=
  { links with prev := Function.update links.prev node before }

def setNext (links : LinkedList ρ) (node : ρ) (after : Option ρ) : LinkedList ρ :=
  { links with next := Function.update links.next node after }

def addToHead (links : LinkedList ρ) (node : ρ) : LinkedList ρ :=
  let links := (links.setNext node links.head).setPrev node none
  let links := match links.head with
    | some first => links.setPrev first (some node)
    | none => links
  { links with head := some node, tail := links.tail.or (some node) }

/-- The four steps of `removeNode`, one for each line of it. -/
def joinNext (links : LinkedList ρ) (node : ρ) : LinkedList ρ :=
  match links.prev node with
  | some before => links.setNext before (links.next node)
  | none => links

def joinPrev (links : LinkedList ρ) (node : ρ) : LinkedList ρ :=
  match links.next node with
  | some after => links.setPrev after (links.prev node)
  | none => links

def leaveHead (links : LinkedList ρ) (node : ρ) : LinkedList ρ :=
  if links.head = some node then { links with head := links.next node } else links

def leaveTail (links : LinkedList ρ) (node : ρ) : LinkedList ρ :=
  if links.tail = some node then { links with tail := links.prev node } else links

def removeNode (links : LinkedList ρ) (node : ρ) : LinkedList ρ :=
  let links := (((links.joinNext node).joinPrev node).leaveHead node).leaveTail node
  (links.setPrev node none).setNext node none

def moveToHead (links : LinkedList ρ) (node : ρ) : LinkedList ρ :=
  (links.removeNode node).addToHead node

theorem addToHead_prev (fresh : links.head ≠ some node) :
    (links.addToHead node).prev other =
      if other = node then none
      else if links.head = some other then some node else links.prev other := by
  unfold addToHead
  cases first : links.head with
  | none => simp [setNext, setPrev, first, Function.update_apply]
  | some top =>
      have apart : node ≠ top := by
        rintro rfl
        exact fresh first
      by_cases isNode : other = node
      · simp [setNext, setPrev, first, isNode, apart]
      · simp [setNext, setPrev, first, Function.update_apply, isNode, eq_comm]

theorem addToHead_next :
    (links.addToHead node).next other = if other = node then links.head else links.next other := by
  unfold addToHead
  cases first : links.head <;> simp [setNext, setPrev, first, Function.update_apply]

theorem addToHead_tail : (links.addToHead node).tail = links.tail.or (some node) := by
  unfold addToHead
  cases first : links.head <;> simp [setNext, setPrev, first]

theorem Threads.addToHead (threads : Threads links order) (fresh : node ∉ order) :
    Threads (links.addToHead node) (node :: order) where
  nodup := List.nodup_cons.mpr ⟨fresh, threads.nodup⟩
  head := rfl
  tail := by
    rw [addToHead_tail, threads.tail]
    cases order with
    | nil => rfl
    | cons first rest => simp [List.getLast?_cons]
  prev := by
    have isNew : links.head ≠ some node := by
      rw [threads.head]
      exact fun isHead => fresh (List.mem_of_mem_head? isHead)
    intro front other back split
    rw [addToHead_prev isNew]
    cases front with
    | nil =>
        obtain ⟨rfl, rfl⟩ := List.cons.inj split
        simp
    | cons first front =>
        obtain ⟨rfl, rfl⟩ := List.cons.inj split
        have apart : other ≠ node := by
          rintro rfl
          exact fresh (by simp)
        rw [if_neg apart, threads.head, threads.prev front other back rfl]
        cases front with
        | nil => simp
        | cons second front =>
            have isLater : second ≠ other := by
              rintro rfl
              have distinct := threads.nodup
              simp at distinct
            simp [isLater, List.getLast?_cons]
  next := by
    intro front other back split
    rw [addToHead_next]
    cases front with
    | nil =>
        obtain ⟨rfl, rfl⟩ := List.cons.inj split
        rw [if_pos rfl, threads.head]
    | cons first front =>
        obtain ⟨rfl, rfl⟩ := List.cons.inj split
        have apart : other ≠ node := by
          rintro rfl
          exact fresh (by simp)
        rw [if_neg apart, threads.next front other back rfl]

theorem joinNext_eq (node : ρ) : links.joinNext node =
    { links with
      next := fun other => if links.prev node = some other then links.next node
        else links.next other } := by
  unfold joinNext
  cases before : links.prev node with
  | none => simp
  | some prev =>
      change links.setNext prev (links.next node) = _
      simp only [setNext]
      congr
      funext other
      simp [Function.update_apply, eq_comm]

theorem joinPrev_eq (node : ρ) : links.joinPrev node =
    { links with
      prev := fun other => if links.next node = some other then links.prev node
        else links.prev other } := by
  unfold joinPrev
  cases after : links.next node with
  | none => simp
  | some next =>
      change links.setPrev next (links.prev node) = _
      simp only [setPrev]
      congr
      funext other
      simp [Function.update_apply, eq_comm]

theorem leaveHead_eq (node : ρ) : links.leaveHead node =
    { links with head := if links.head = some node then links.next node else links.head } := by
  unfold leaveHead
  split <;> rfl

theorem leaveTail_eq (node : ρ) : links.leaveTail node =
    { links with tail := if links.tail = some node then links.prev node else links.tail } := by
  unfold leaveTail
  split <;> rfl

/-- What `removeNode` leaves of the links, where the node is not its own neighbour. -/
theorem removeNode_eq (before : links.prev node ≠ some node)
    (after : links.next node ≠ some node) :
    links.removeNode node =
      { prev := fun other => if other = node then none
          else if links.next node = some other then links.prev node else links.prev other
        next := fun other => if other = node then none
          else if links.prev node = some other then links.next node else links.next other
        head := if links.head = some node then links.next node else links.head
        tail := if links.tail = some node then links.prev node else links.tail } := by
  rw [removeNode, joinNext_eq, joinPrev_eq, leaveHead_eq, leaveTail_eq]
  simp only [if_neg before, if_neg after, setPrev, setNext]
  congr
  · funext other
    rw [Function.update_apply]
  · funext other
    rw [Function.update_apply]

theorem Threads.head_removed (threads : Threads links (front ++ node :: back)) :
    (if links.head = some node then back.head? else links.head) = (front ++ back).head? := by
  rw [threads.head]
  cases front with
  | nil => simp
  | cons first front =>
      have apart : first ≠ node := threads.ne_of_mem (by simp)
      simp [apart]

theorem Threads.tail_removed (threads : Threads links (front ++ node :: back)) :
    (if links.tail = some node then front.getLast? else links.tail) =
      (front ++ back).getLast? := by
  rw [threads.tail]
  cases back using List.reverseRecOn with
  | nil => simp
  | append_singleton back last =>
      have apart : last ≠ node := threads.ne_of_mem (by simp)
      have isTail : (front ++ node :: (back ++ [last])).getLast? = some last := by
        rw [← List.cons_append, ← List.append_assoc, List.getLast?_concat]
      rw [isTail, if_neg (fun same => apart (Option.some.inj same)), ← List.append_assoc,
        List.getLast?_concat]

theorem Threads.prev_removed (threads : Threads links (front ++ node :: back))
    {before after : List ρ} (split : front ++ back = before ++ other :: after) :
    (if back.head? = some other then front.getLast? else links.prev other) = before.getLast? := by
  rcases split_append split with ⟨mid, rfl, rfl⟩ | ⟨mid, rfl, rfl⟩
  · have notFirst : back.head? ≠ some other := fun isFirst =>
      threads.not_mem_back (by simp) (List.mem_of_mem_head? isFirst)
    rw [if_neg notFirst]
    exact threads.prev before other (mid ++ node :: back) (by simp)
  · have distinct := (List.nodup_cons.mp (List.nodup_append.mp threads.nodup).2.1).2
    rw [threads.prev (front ++ node :: mid) other after (by simp)]
    simp only [first_eq distinct]
    split
    · rename_i isEmpty
      simp [isEmpty]
    · rename_i notEmpty
      obtain ⟨first, rest, rfl⟩ := List.exists_cons_of_ne_nil notEmpty
      simp [List.getLast?_cons]

theorem Threads.next_removed (threads : Threads links (front ++ node :: back))
    {before after : List ρ} (split : front ++ back = before ++ other :: after) :
    (if front.getLast? = some other then back.head? else links.next other) = after.head? := by
  rcases split_append split with ⟨mid, rfl, rfl⟩ | ⟨mid, rfl, rfl⟩
  · rw [threads.next before other (mid ++ node :: back) (by simp)]
    simp only [last_eq (List.nodup_append.mp threads.nodup).1]
    split
    · rename_i isEmpty
      simp [isEmpty]
    · rename_i notEmpty
      obtain ⟨first, rest, rfl⟩ := List.exists_cons_of_ne_nil notEmpty
      simp
  · have notLast : front.getLast? ≠ some other := fun isLast =>
      threads.not_mem_back (List.mem_of_getLast? isLast) (by simp)
    rw [if_neg notLast]
    exact threads.next (front ++ node :: mid) other after (by simp)

theorem Threads.removeNode (threads : Threads links (front ++ node :: back)) :
    Threads (links.removeNode node) (front ++ back) := by
  have before := threads.prev front node back rfl
  have after := threads.next front node back rfl
  have notBefore : links.prev node ≠ some node := by
    rw [before]
    exact fun isLast =>
      threads.ne_of_mem (List.mem_append_left _ (List.mem_of_getLast? isLast)) rfl
  have notAfter : links.next node ≠ some node := by
    rw [after]
    exact fun isFirst =>
      threads.ne_of_mem (List.mem_append_right _ (List.mem_of_mem_head? isFirst)) rfl
  rw [removeNode_eq notBefore notAfter, before, after]
  refine { nodup := ?_, head := threads.head_removed, tail := threads.tail_removed
           prev := ?_, next := ?_ }
  · exact threads.nodup.sublist (by simp)
  · intro earlier other later split
    have apart : other ≠ node := threads.ne_of_mem (split ▸ by simp)
    simp only [if_neg apart]
    exact threads.prev_removed split
  · intro earlier other later split
    have apart : other ≠ node := threads.ne_of_mem (split ▸ by simp)
    simp only [if_neg apart]
    exact threads.next_removed split

theorem Threads.remove (threads : Threads links order) (member : node ∈ order) :
    Threads (links.removeNode node) (order.filter (· ≠ node)) := by
  obtain ⟨front, back, rfl⟩ := List.append_of_mem member
  have distinct := List.nodup_middle.mp threads.nodup
  have others : ∀ other ∈ front ++ back, decide (other ≠ node) = true := by
    intro other isOther
    refine decide_eq_true ?_
    rintro rfl
    exact (List.nodup_cons.mp distinct).1 isOther
  have rest : (front ++ node :: back).filter (· ≠ node) = front ++ back := by
    rw [List.filter_append, List.filter_cons_of_neg (by simp), ← List.filter_append]
    exact List.filter_eq_self.mpr others
  rw [rest]
  exact threads.removeNode

section Items

variable {α : Type*} {holds later : ρ → α → Prop} {items : List α}

theorem Carries.remove (carries : Carries links holds order items) {keep : α → Bool}
    (member : node ∈ order)
    (agree : ∀ other item, holds other item → (other ≠ node ↔ keep item = true))
    (stays : ∀ other item, holds other item → keep item = true → later other item) :
    Carries (links.removeNode node) later (order.filter (· ≠ node)) (items.filter keep) where
  threads := carries.threads.remove member
  held := by
    refine forall₂_filter carries.held (fun other item held => ?_) stays
    rw [Bool.eq_iff_iff, ← agree other item held, decide_eq_true_iff]

theorem Carries.add (carries : Carries links holds order items) {item : α} (fresh : node ∉ order)
    (isHeld : later node item) (stays : ∀ other item, holds other item → later other item) :
    Carries (links.addToHead node) later (node :: order) (item :: items) where
  threads := carries.threads.addToHead fresh
  held := .cons isHeld (carries.held.imp stays)

theorem Carries.move (carries : Carries links holds order items) {item : α} {keep : α → Bool}
    (member : node ∈ order)
    (agree : ∀ other item, holds other item → (other ≠ node ↔ keep item = true))
    (stays : ∀ other item, holds other item → keep item = true → later other item)
    (isHeld : later node item) :
    Carries (links.moveToHead node) later (node :: order.filter (· ≠ node))
      (item :: items.filter keep) :=
  (carries.remove member agree stays).add (by simp) isHeld fun _ _ held => held

end Items

end LinkedList
