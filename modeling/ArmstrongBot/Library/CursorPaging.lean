import Mathlib.Data.List.Sort
import Mathlib.Data.List.Induction

/-! Reading a sorted collection page by page while it changes. A page starts behind the last entry
of the page before, or at the front when that entry is gone. -/

namespace CursorPaging

structure Page (ι α : Type*) where
  items : List ι
  nextCursor : Option α

def Page.map {ι κ α : Type*} (f : ι → κ) (page : Page ι α) : Page κ α :=
  { page with items := page.items.map f }

inductive Progress (α : Type*)
  | asking (cursor : Option α)
  | finished
  | failed
  deriving DecidableEq

structure Reading (ι α : Type*) where
  progress : Progress α
  returned : List ι

section

variable {ι κ α : Type*}

def Reading.map (f : ι → κ) (reading : Reading ι α) : Reading κ α :=
  { reading with returned := reading.returned.map f }

def Reading.receive (reading : Reading ι α) : Option (Page ι α) → Reading ι α
  | none => { reading with progress := .failed }
  | some page =>
      { progress := match page.nextCursor with
          | none => .finished
          | some last => .asking (some last)
        returned := reading.returned ++ page.items }

@[simp]
theorem receive_none (reading : Reading ι α) :
    reading.receive none = { reading with progress := .failed } := rfl

@[simp]
theorem receive_rest (reading : Reading ι α) (items : List ι) :
    reading.receive (some { items, nextCursor := none }) =
      { progress := .finished, returned := reading.returned ++ items } := rfl

@[simp]
theorem receive_more (reading : Reading ι α) (items : List ι) (last : α) :
    reading.receive (some { items, nextCursor := some last }) =
      { progress := .asking (some last), returned := reading.returned ++ items } := rfl

def Reading.next (reading : Reading ι α) (answer : Option α → Option (Page ι α)) : Reading ι α :=
  match reading.progress with
  | .asking cursor => reading.receive (answer cursor)
  | .finished | .failed => reading

/-- The reading after so many requests. -/
def read (answers : Nat → Option α → Option (Page ι α)) : Nat → Reading ι α
  | 0 => { progress := .asking none, returned := [] }
  | count + 1 => (read answers count).next (answers count)

theorem next_asking {reading : Reading ι α} {cursor : Option α}
    (asking : reading.progress = .asking cursor) (answer : Option α → Option (Page ι α)) :
    reading.next answer = reading.receive (answer cursor) := by
  rw [Reading.next, asking]

theorem next_over {reading : Reading ι α}
    (isOver : ∀ cursor, reading.progress ≠ .asking cursor) (answer : Option α → Option (Page ι α)) :
    reading.next answer = reading := by
  cases progress : reading.progress with
  | asking cursor => exact absurd progress (isOver cursor)
  | finished | failed => rw [Reading.next, progress]

theorem read_map (f : ι → κ) {answers : Nat → Option α → Option (Page ι α)}
    {others : Nat → Option α → Option (Page κ α)}
    (mapped : ∀ count cursor, (answers count cursor).map (Page.map f) = others count cursor)
    (count : Nat) : (read answers count).map f = read others count := by
  induction count with
  | zero => rfl
  | succ count ih =>
      rw [read, read, ← ih]
      cases progress : (read answers count).progress with
      | asking cursor =>
          have asking : ((read answers count).map f).progress = .asking cursor := progress
          rw [next_asking progress, next_asking asking, ← mapped]
          cases answers count cursor with
          | none => rfl
          | some page => simp [Reading.receive, Reading.map, Page.map]
      | finished | failed =>
          rw [next_over (by simp [progress]), next_over (by simp [Reading.map, progress])]

theorem read_congr {answers others : Nat → Option α → Option (Page ι α)} {count : Nat}
    (same : ∀ earlier < count, answers earlier = others earlier) :
    read answers count = read others count := by
  induction count with
  | zero => rfl
  | succ count ih =>
      rw [read, read, ih fun earlier before => same earlier (by omega), same count (by omega)]

theorem read_over {answers : Nat → Option α → Option (Page ι α)} {count : Nat}
    (isOver : ∀ cursor, (read answers count).progress ≠ .asking cursor) {later : Nat}
    (after : count ≤ later) : read answers later = read answers count := by
  induction later, after using Nat.le_induction with
  | base => rfl
  | succ later _ ih => rw [read, ih, next_over isOver]

/-- A reading is over in one way only. -/
theorem read_over_unique {answers : Nat → Option α → Option (Page ι α)} {first second : Nat}
    (firstOver : ∀ cursor, (read answers first).progress ≠ .asking cursor)
    (secondOver : ∀ cursor, (read answers second).progress ≠ .asking cursor) :
    read answers first = read answers second := by
  rcases Nat.le_total first second with before | after
  · exact (read_over firstOver before).symm
  · exact read_over secondOver after

end

section

variable {α : Type*} [LinearOrder α]

/-- The entries in their order, and which of them can be opened. -/
structure Content (α : Type*) [LinearOrder α] where
  names : List α
  opens : α → Bool
  sorted : names.Pairwise (· < ·)

/-- One more than the index of the cursor, which is -1 when it is gone. -/
def position (names : List α) : Option α → Nat
  | none => 0
  | some cursor =>
      match names.idxOf? cursor with
      | some index => index + 1
      | none => 0

def behind (names : List α) (cursor : Option α) : List α := names.drop (position names cursor)

def list (limit : Nat) (content : Content α) (cursor : Option α) : Option (Page α α) :=
  let start := position content.names cursor
  let slice := (content.names.drop start).take limit
  if slice.all content.opens then
    some { items := slice
           nextCursor :=
             if start + slice.length < content.names.length then slice.getLast? else none }
  else none

def requests (limit : Nat) (contents : Nat → Content α) (count : Nat) :
    Option α → Option (Page α α) :=
  list limit (contents count)

theorem behind_last {names front tail : List α} {last : α} (sorted : names.Pairwise (· < ·))
    (cut : names = front ++ last :: tail) : behind names (some last) = tail := by
  have new : last ∉ front := by
    intro member
    have before := (List.pairwise_append.mp (cut ▸ sorted)).2.2 last member last (by simp)
    exact lt_irrefl last before
  have found : names.idxOf? last = some front.length := by
    rw [List.idxOf?_eq_some_iff, cut]
    exact ⟨by simp, by simp, fun index before => by
      rw [List.getElem_append_left before]
      exact ne_of_mem_of_not_mem (List.getElem_mem before) new⟩
  rw [behind, position, found, cut, List.drop_append, List.drop_eq_nil_of_le (by simp)]
  simp

theorem behind_gone {names : List α} {cursor : α} (gone : cursor ∉ names) :
    behind names (some cursor) = names := by
  have notFound : names.idxOf? cursor = none := List.idxOf?_eq_none_iff.mpr gone
  rw [behind, position, notFound, List.drop_zero]

/-- An entry is behind the cursor when it comes after it, or when the cursor is gone. -/
theorem mem_behind {names : List α} (sorted : names.Pairwise (· < ·)) {cursor : Option α}
    {name : α} :
    name ∈ behind names cursor ↔
      name ∈ names ∧ ∀ asked ∈ cursor, asked ∈ names → asked < name := by
  cases cursor with
  | none => simp [behind, position]
  | some asked =>
      by_cases member : asked ∈ names
      · obtain ⟨front, tail, cut⟩ := List.append_of_mem member
        obtain ⟨-, tailSorted, across⟩ := List.pairwise_append.mp (cut ▸ sorted)
        have after : ∀ later ∈ tail, asked < later := fun _ => List.rel_of_pairwise_cons tailSorted
        rw [behind_last sorted cut, cut]
        constructor
        · intro inTail
          exact ⟨by simp [inTail], fun _ same _ => by
            cases Option.some.inj same
            exact after name inTail⟩
        · rintro ⟨isName, later⟩
          have isLater := later asked rfl (by simp)
          rcases List.mem_append.mp isName with inFront | inRest
          · exact absurd isLater (lt_asymm (across name inFront asked (by simp)))
          · exact (List.mem_cons.mp inRest).resolve_left (ne_of_gt isLater)
      · rw [behind_gone member]
        simp [member]

theorem behind_suffix (names : List α) (cursor : Option α) : behind names cursor <:+ names :=
  List.drop_suffix _ _

/-- What a request for a page of some length can bring. -/
inductive Answered (content : Content α) (cursor : Option α) : Option (Page α α) → Prop
  | closed {name : α} (member : name ∈ behind content.names cursor)
      (shut : content.opens name = false) : Answered content cursor none
  | rest (opened : ∀ name ∈ behind content.names cursor, content.opens name = true) :
      Answered content cursor (some { items := behind content.names cursor, nextCursor := none })
  | more {front tail : List α} {last : α}
      (cut : behind content.names cursor = front ++ last :: tail)
      (opened : ∀ name ∈ front ++ [last], content.opens name = true)
      (follows : behind content.names (some last) = tail) :
      Answered content cursor (some { items := front ++ [last], nextCursor := some last })

theorem list_answered {limit : Nat} (positive : 0 < limit) (content : Content α)
    (cursor : Option α) : Answered content cursor (list limit content cursor) := by
  have slice_eq : (content.names.drop (position content.names cursor)).take limit =
      (behind content.names cursor).take limit := rfl
  have ends : position content.names cursor + ((behind content.names cursor).take limit).length <
      content.names.length ↔ limit < (behind content.names cursor).length := by
    rw [List.length_take, behind, List.length_drop]
    omega
  simp only [list, slice_eq, ends]
  split
  · rename_i opened
    have opens : ∀ name ∈ (behind content.names cursor).take limit, content.opens name = true :=
      List.all_eq_true.mp opened
    split
    · rename_i longer
      obtain empty | ⟨front, last, slice⟩ :=
        List.eq_nil_or_concat' ((behind content.names cursor).take limit)
      · have lengths := congrArg List.length empty
        rw [List.length_take, List.length_nil] at lengths
        omega
      · have cut : behind content.names cursor =
            front ++ last :: (behind content.names cursor).drop limit := by
          conv_lhs => rw [← List.take_append_drop limit (behind content.names cursor), slice]
          simp
        rw [slice, List.getLast?_concat]
        refine .more cut (slice ▸ opens) ?_
        obtain ⟨passed, whole⟩ := behind_suffix content.names cursor
        refine @behind_last _ _ _ (passed ++ front) _ _ content.sorted ?_
        rw [List.append_assoc, ← cut, whole]
    · rename_i atEnd
      have whole := List.take_of_length_le (Nat.le_of_not_lt atEnd)
      rw [whole] at opens ⊢
      exact .rest opens
  · rename_i notOpened
    obtain ⟨name, member, shut⟩ := List.all_eq_false.mp (Bool.not_eq_true _ ▸ notOpened)
    exact .closed (List.mem_of_mem_take member) (by simpa using shut)

/-- The contents up to the last change. -/
def freeze {σ : Type*} (contents : Nat → σ) (last count : Nat) : σ := contents (min count last)

section

variable (limit : Nat) (contents : Nat → Content α)

/-- The reading ends, what was there at every request is returned, and nothing is twice. -/
def PagesRight : Prop :=
  ∃ done, (read (requests limit contents) done).progress = .finished ∧
    (read (requests limit contents) done).returned.Nodup ∧
    ∀ name,
      (∀ count cursor, (read (requests limit contents) count).progress = .asking cursor →
        name ∈ (contents count).names) →
      name ∈ (read (requests limit contents) done).returned

/-- What comes behind the cursor is new to the reading and can be opened. -/
def Settled (count : Nat) : Prop :=
  ∀ cursor, (read (requests limit contents) count).progress = .asking cursor →
    ∀ name ∈ (contents count).names,
      (∀ asked ∈ cursor, asked ∈ (contents count).names → asked < name) →
      name ∉ (read (requests limit contents) count).returned ∧ (contents count).opens name = true

end

section

variable {limit : Nat} {contents : Nat → Content α}

theorem Settled.behind {count : Nat} (settled : Settled limit contents count) {cursor : Option α}
    (asking : (read (requests limit contents) count).progress = .asking cursor) {name : α}
    (member : name ∈ behind (contents count).names cursor) :
    name ∉ (read (requests limit contents) count).returned ∧
      (contents count).opens name = true := by
  obtain ⟨isName, after⟩ := (mem_behind (contents count).sorted).mp member
  exact settled cursor asking name isName after

theorem read_asking {count : Nat} {cursor : Option α}
    (asking : (read (requests limit contents) count).progress = .asking cursor) :
    read (requests limit contents) (count + 1) =
      (read (requests limit contents) count).receive (list limit (contents count) cursor) :=
  next_asking asking _

theorem nodup_behind (content : Content α) (cursor : Option α) :
    (behind content.names cursor).Nodup :=
  (content.sorted.imp ne_of_lt).sublist (behind_suffix _ _).sublist

theorem read_unchanged (positive : 0 < limit) {count : Nat}
    (unchanged : ∀ later, count ≤ later → contents later = contents count) {cursor : Option α}
    (asking : (read (requests limit contents) count).progress = .asking cursor) :
    ∃ done,
      ((read (requests limit contents) done).progress = .failed ∧
        ∃ name ∈ behind (contents count).names cursor, (contents count).opens name = false) ∨
      ((read (requests limit contents) done).progress = .finished ∧
        (read (requests limit contents) done).returned =
          (read (requests limit contents) count).returned ++
            behind (contents count).names cursor ∧
        ∀ name ∈ behind (contents count).names cursor, (contents count).opens name = true) := by
  induction size : (behind (contents count).names cursor).length using Nat.strong_induction_on
    generalizing count cursor with
  | _ length ih =>
      have stepped := read_asking asking
      have answered := list_answered positive (contents count) cursor
      generalize list limit (contents count) cursor = answer at stepped answered
      cases answered with
      | closed member shut => exact ⟨count + 1, .inl ⟨by simp [stepped], _, member, shut⟩⟩
      | rest opened => exact ⟨count + 1, .inr ⟨by simp [stepped], by simp [stepped], opened⟩⟩
      | @more front tail last cut opened follows =>
          have still := unchanged (count + 1) (by omega)
          have shorter : (behind (contents (count + 1)).names (some last)).length < length := by
            rw [still, follows, ← size, cut, List.length_append, List.length_cons]
            omega
          have asksNext : (read (requests limit contents) (count + 1)).progress =
              .asking (some last) := by simp [stepped]
          obtain ⟨done, outcome⟩ := ih _ shorter
            (fun later after => by rw [still, unchanged later (by omega)]) asksNext rfl
          refine ⟨done, ?_⟩
          rw [still, follows] at outcome
          rcases outcome with ⟨failed, name, member, shut⟩ | ⟨finished, returned, restOpens⟩
          · exact .inl ⟨failed, name, by rw [cut]; simp [member], shut⟩
          · refine .inr ⟨finished, ?_, ?_⟩
            · rw [returned, stepped, cut]
              simp
            · intro name member
              rw [cut, List.append_cons] at member
              rcases List.mem_append.mp member with inPage | inTail
              · exact opened name inPage
              · exact restOpens name inTail

/-- What is there at every request is behind the cursor until it is returned. -/
theorem present_returned (positive : 0 < limit) {name : α}
    (present : ∀ count cursor, (read (requests limit contents) count).progress = .asking cursor →
      name ∈ (contents count).names) (count : Nat) :
    (∀ cursor, (read (requests limit contents) count).progress = .asking cursor →
        name ∈ (read (requests limit contents) count).returned ∨
          name ∈ behind (contents count).names cursor) ∧
      ((read (requests limit contents) count).progress = .finished →
        name ∈ (read (requests limit contents) count).returned) := by
  induction count with
  | zero =>
      refine ⟨fun cursor asking => .inr ?_, nofun⟩
      cases asking
      exact present 0 none rfl
  | succ count ih =>
      by_cases isOver : ∀ cursor, (read (requests limit contents) count).progress ≠ .asking cursor
      · have same := read_over isOver (Nat.le_succ count)
        rw [same]
        exact ⟨fun cursor asking => absurd asking (isOver cursor), ih.2⟩
      · obtain ⟨cursor, asking⟩ := not_forall_not.mp isOver
        have stepped := read_asking asking
        have answered := list_answered positive (contents count) cursor
        have before := ih.1 cursor asking
        generalize list limit (contents count) cursor = answer at stepped answered
        cases answered with
        | closed => simp [stepped]
        | rest => simpa [stepped] using before
        | @more front tail last cut opened follows =>
            refine ⟨fun next asksNext => ?_, by simp [stepped]⟩
            have isName := present _ next asksNext
            obtain rfl : some last = next := by simpa [stepped] using asksNext
            rw [cut, List.append_cons, List.mem_append] at before
            rw [stepped, receive_more, List.mem_append]
            rcases before with returned | inPage | inTail
            · exact .inl (.inl returned)
            · exact .inl (.inr inPage)
            · -- the page ends before the entry, so the entry is behind it in every later order
              have after := ((mem_behind (contents count).sorted).mp (follows ▸ inTail)).2
              have isLast : last ∈ (contents count).names :=
                (behind_suffix _ cursor).subset (by rw [cut]; simp)
              refine .inr ((mem_behind (contents (count + 1)).sorted).mpr ⟨isName, ?_⟩)
              rintro _ ⟨⟩ -
              exact after last rfl isLast

theorem settled_read (positive : 0 < limit) (count : Nat)
    (settled : ∀ earlier < count, Settled limit contents earlier) :
    (read (requests limit contents) count).progress ≠ .failed ∧
      (read (requests limit contents) count).returned.Nodup := by
  induction count with
  | zero => exact ⟨nofun, List.nodup_nil⟩
  | succ count ih =>
      have before := ih fun earlier isEarlier => settled earlier (by omega)
      by_cases isOver : ∀ cursor, (read (requests limit contents) count).progress ≠ .asking cursor
      · rw [read_over isOver (Nat.le_succ count)]
        exact before
      · obtain ⟨cursor, asking⟩ := not_forall_not.mp isOver
        have stepped := read_asking asking
        have answered := list_answered positive (contents count) cursor
        have new : ∀ name ∈ behind (contents count).names cursor, _ := fun name member =>
          (settled count (by omega)).behind asking member
        have distinct := nodup_behind (contents count) cursor
        generalize list limit (contents count) cursor = answer at stepped answered
        cases answered with
        | closed member shut => simp [(new _ member).2] at shut
        | rest =>
            refine ⟨by simp [stepped], ?_⟩
            rw [stepped, receive_rest]
            exact before.2.append distinct fun name returned member => (new name member).1 returned
        | @more front tail last cut =>
            refine ⟨by simp [stepped], ?_⟩
            have inPage : front ++ [last] <+: behind (contents count).names cursor :=
              ⟨tail, by rw [cut]; simp⟩
            rw [stepped, receive_more]
            exact before.2.append (distinct.sublist inPage.sublist) fun name returned member =>
              (new name (inPage.subset member)).1 returned

theorem read_freeze {last count : Nat} (early : count ≤ last + 1) :
    read (requests limit (freeze contents last)) count = read (requests limit contents) count :=
  read_congr fun earlier before => by
    rw [requests, requests, freeze, Nat.min_eq_left (by omega)]

theorem freeze_unchanged (last later : Nat) (after : last ≤ later) :
    freeze contents last later = freeze contents last last := by
  rw [freeze, freeze, Nat.min_eq_right after, Nat.min_self]

theorem pagesRight_of_settled (positive : 0 < limit)
    (settled : ∀ count, Settled limit contents count) (last : Nat) :
    PagesRight limit (freeze contents last) := by
  have before := settled_read positive last fun earlier _ => settled earlier
  have frozen : read (requests limit (freeze contents last)) last =
      read (requests limit contents) last := read_freeze (Nat.le_succ last)
  have here : freeze contents last last = contents last := by rw [freeze, Nat.min_self]
  suffices ends : ∃ done,
      (read (requests limit (freeze contents last)) done).progress = .finished ∧
        (read (requests limit (freeze contents last)) done).returned.Nodup by
    obtain ⟨done, finished, distinct⟩ := ends
    exact ⟨done, finished, distinct, fun name present =>
      (present_returned positive present done).2 finished⟩
  cases progress : (read (requests limit contents) last).progress with
  | asking cursor =>
      have asking := progress
      rw [← frozen] at asking
      have new : ∀ name ∈ behind (contents last).names cursor, _ := fun name member =>
        (settled last).behind progress member
      obtain ⟨done, outcome⟩ := read_unchanged positive (freeze_unchanged last) asking
      rw [here, frozen] at outcome
      rcases outcome with ⟨-, name, member, shut⟩ | ⟨finished, returned, -⟩
      · simp [(new name member).2] at shut
      · refine ⟨done, finished, ?_⟩
        rw [returned]
        exact before.2.append (nodup_behind _ _) fun name isReturned member =>
          (new name member).1 isReturned
  | finished => exact ⟨last, by rw [frozen, progress], by rw [frozen]; exact before.2⟩
  | failed => exact absurd progress before.1

theorem settled_of_pagesRight (positive : 0 < limit) {count : Nat}
    (right : PagesRight limit (freeze contents count)) : Settled limit contents count := by
  intro cursor asking name isName after
  have frozen : read (requests limit (freeze contents count)) count =
      read (requests limit contents) count := read_freeze (Nat.le_succ count)
  have here : freeze contents count count = contents count := by rw [freeze, Nat.min_self]
  have member := (mem_behind (contents count).sorted).mpr ⟨isName, after⟩
  obtain ⟨done, finished, distinct, -⟩ := right
  have asksFrozen := asking
  rw [← frozen] at asksFrozen
  obtain ⟨other, outcome⟩ := read_unchanged positive (freeze_unchanged count) asksFrozen
  rw [here, frozen] at outcome
  rcases outcome with ⟨failed, -⟩ | ⟨alsoFinished, returned, opened⟩
  · have same : read _ done = read _ other := read_over_unique
      (fun _ => by rw [finished]; exact nofun) fun _ => by rw [failed]; exact nofun
    rw [same, failed] at finished
    cases finished
  · have same : read _ done = read _ other := read_over_unique
      (fun _ => by rw [finished]; exact nofun) fun _ => by rw [alsoFinished]; exact nofun
    rw [same, returned] at distinct
    exact ⟨fun isReturned => (List.nodup_append.mp distinct).2.2 name isReturned name member rfl,
      opened name member⟩

theorem list_empty (content : Content α) (cursor : Option α) :
    list 0 content cursor = some { items := [], nextCursor := none } := by
  simp only [list]
  split_ifs with opened more
  · simp
  · simp
  · simp at opened

theorem read_emptyPages (count : Nat) :
    read (requests 0 contents) (count + 1) = { progress := .finished, returned := [] } := by
  have first : read (requests 0 contents) 1 = { progress := .finished, returned := [] } := by
    simp [read, Reading.next, requests, list_empty]
  rw [← first]
  exact read_over (by simp [first]) (by omega)

theorem emptyPages_right_iff :
    (∀ last, PagesRight 0 (freeze contents last)) ↔ (contents 0).names = [] := by
  constructor
  · intro right
    obtain ⟨done, finished, -, complete⟩ := right 0
    have ends : read _ done = read _ 1 := read_over_unique
      (fun _ => by rw [finished]; exact nofun) fun _ => by rw [read_emptyPages]; exact nofun
    have same : ∀ count, freeze contents 0 count = contents 0 := fun count => by
      rw [freeze, Nat.min_zero]
    refine List.eq_nil_iff_forall_not_mem.mpr fun name member => ?_
    have returned := complete name fun count _ _ => by rw [same]; exact member
    rw [ends, read_emptyPages] at returned
    exact List.not_mem_nil returned
  · intro empty last
    refine ⟨1, by rw [read_emptyPages], by rw [read_emptyPages]; exact List.nodup_nil, ?_⟩
    intro name present
    have here := present 0 none rfl
    rw [freeze, Nat.zero_min, empty] at here
    exact absurd here List.not_mem_nil

/-- Every reading that sees no change after some request is right exactly when pages are not empty
and the requests are settled. -/
theorem pagesRight_iff :
    (∀ last, PagesRight limit (freeze contents last)) ↔
      (0 < limit ∨ (contents 0).names = []) ∧ ∀ count, Settled limit contents count := by
  rcases Nat.eq_zero_or_pos limit with rfl | positive
  · rw [emptyPages_right_iff]
    refine ⟨fun empty => ⟨.inr empty, ?_⟩, fun conditions => by simpa using conditions.1⟩
    rintro (_ | count) cursor asking name member
    · simp [empty] at member
    · rw [read_emptyPages] at asking
      cases asking
  · constructor
    · exact fun right => ⟨.inl positive, fun count => settled_of_pagesRight positive (right count)⟩
    · exact fun conditions last => pagesRight_of_settled positive conditions.2 last

end

end

end CursorPaging
