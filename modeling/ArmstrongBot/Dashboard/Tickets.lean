import ArmstrongBot.Cache.Instances
import ArmstrongBot.Library.StepMachine

/-! The WebSocket tickets of `TicketService`, which the caches of all processes hold. The calls
advance from await to await. -/

namespace Tickets

open JsText StepMachine CacheService
open Calendar (Timestamp)

structure TicketPayload where
  sessionId : JsString
  discordId : JsString
  deriving DecidableEq

abbrev Entry := CacheEntry TicketPayload

def ticketKey (ticket : JsString) : JsString := js "global:user:dash:ws-ticket:" ++ ticket

/-- Where an `issue` or a `consume` stands; `delete` waits for the command of Redis. -/
inductive Phase
  | storing (entry : Entry)
  | issued
  | asking
  | answered (hit : Option Entry)
  | found (payload : TicketPayload)
  | deleting (payload : TicketPayload)
  | deleted (payload : TicketPayload)
  | returned (payload : Option TicketPayload)
  deriving DecidableEq

/-- `late` tells whether a `consume` had returned the payload of the ticket before. -/
structure Call where
  process : Nat
  ticket : JsString
  late : Bool
  phase : Phase
  deriving DecidableEq

def Call.to (call : Call) (phase : Phase) : Call := { call with phase }

structure State where
  cache : Levels TicketPayload
  calls : List Call

def State.start : State := { cache := .empty, calls := [] }

def Phase.gave : Phase → Bool
  | .returned (some _) => true
  | _ => false

def gaveTicket (state : State) (ticket : JsString) : Bool :=
  state.calls.any fun call => call.ticket = ticket && call.phase.gave

def begin (state : State) (process : Nat) (ticket : JsString) (phase : Phase) : State :=
  { state with
    calls := state.calls ++ [{ process, ticket, late := gaveTicket state ticket, phase }] }

/-- `issue` up to the command of Redis, which is not sent for an entry that is over at once. -/
def issue (ticketTtlSeconds : Nat) (state : State) (process : Nat) (ticket : JsString)
    (payload : TicketPayload) (now : Timestamp) : State :=
  let entry := entryOf payload ticketTtlSeconds now
  begin state process ticket (if entry.expiresAt ≤ now then .issued else .storing entry)

/-- `consume` up to what the memory of its process has. -/
def consume (state : State) (process : Nat) (ticket : JsString) (now : Timestamp) : State :=
  let (hit, cache) := memoryGet state.cache process (ticketKey ticket) now
  { begin state process ticket (match hit with
      | some entry => .found entry.value
      | none => .asking) with cache }

/-- What a call does next, with the caches after it. -/
def advance (cache : Levels TicketPayload) (call : Call) (fails : Bool) :
    Option (Levels TicketPayload × Phase) :=
  match call.phase with
  | .storing entry => some (redisSet cache (ticketKey call.ticket) entry fails, .issued)
  | .asking => some (cache, .answered (redisGet cache (ticketKey call.ticket) fails))
  | .answered (some entry) =>
      some (cache.set (.own call.process, ticketKey call.ticket) entry, .found entry.value)
  | .answered none => some (cache, .returned none)
  | .found payload =>
      some (cache.delete (.own call.process, ticketKey call.ticket), .deleting payload)
  | .deleting payload => some (redisDelete cache (ticketKey call.ticket) fails, .deleted payload)
  | .deleted payload => some (cache, .returned (some payload))
  | .issued | .returned _ => none

/-- A ticket is 24 random bytes: none comes twice, or is named before it is drawn. -/
def Fresh (state : State) (ticket : JsString) : Prop := ∀ call ∈ state.calls, call.ticket ≠ ticket

instance (state : State) (ticket : JsString) : Decidable (Fresh state ticket) :=
  inferInstanceAs (Decidable (∀ _ ∈ _, _))

inductive Action
  | issue (process : Nat) (ticket : JsString) (payload : TicketPayload) (now : Timestamp)
  | consume (process : Nat) (ticket : JsString) (now : Timestamp)
  | advance (call : Nat) (fails : Bool)
  | evict (level : Tiers.Level) (key : JsString)

def step (ticketTtlSeconds : Nat) (state : State) : Action → Option State
  | .issue process ticket payload now =>
      if Fresh state ticket then some (issue ticketTtlSeconds state process ticket payload now)
      else none
  | .consume process ticket now => some (consume state process ticket now)
  | .advance index fails =>
      match state.calls[index]? with
      | some call =>
          (advance state.cache call fails).map fun next =>
            { cache := next.1, calls := state.calls.set index (call.to next.2) }
      | none => none
  | .evict level key => some { state with cache := state.cache.delete (level, key) }

/-- One `consume` at most returns the payload, and none that starts after it has. -/
structure SingleUse (state : State) : Prop where
  once : ∀ (first second : Nat) (one other : Call), state.calls[first]? = some one →
    state.calls[second]? = some other → one.ticket = other.ticket →
    one.phase.gave = true → other.phase.gave = true → first = second
  afterwards : ∀ call ∈ state.calls, call.late = true → call.phase.gave = false

/-- The call has found the payload, and its command to Redis has not landed. -/
def Phase.isOpen : Phase → Bool
  | .answered (some _) | .found _ | .deleting _ => true
  | _ => false

/-- No call is between the lookup that found the ticket and the deletion from Redis. -/
def NoneOpen (state : State) (ticket : JsString) : Prop :=
  ∀ call ∈ state.calls, call.ticket = ticket → call.phase.isOpen = false

instance (state : State) (ticket : JsString) : Decidable (NoneOpen state ticket) :=
  inferInstanceAs (Decidable (∀ _ ∈ _, _))

/-- The lookup in Redis finds the ticket only where no other call is about to delete it, and the
command that deletes it fails only where Redis has it no more. -/
def Alone (state : State) (call : Call) (fails : Bool) : Prop :=
  match call.phase with
  | .asking =>
      redisGet state.cache (ticketKey call.ticket) fails = none ∨ NoneOpen state call.ticket
  | .deleting _ => fails = false ∨ state.cache.get (.shared, ticketKey call.ticket) = none
  | _ => True

/-- The same for the lookup in a memory. -/
def Undisturbed (state : State) : Action → Prop
  | .consume process ticket now =>
      (memoryGet state.cache process (ticketKey ticket) now).1 = none ∨ NoneOpen state ticket
  | .advance index fails => ∀ call ∈ state.calls[index]?, Alone state call fails
  | _ => True

/-! Who has the payload of a ticket. -/

/-- The call carries the ticket: it stores it, or it has found it. -/
def Phase.carries : Phase → Bool
  | .storing _ | .answered (some _) | .found _ | .deleting _ | .deleted _ | .returned (some _) =>
      true
  | _ => false

def Phase.isFound : Phase → Bool
  | .found _ => true
  | _ => false

/-- The call that carries the ticket is such a one. -/
def CarriedBy (state : State) (ticket : JsString) (holder : Option Nat) (is : Call → Bool) : Prop :=
  ∃ (index : Nat) (call : Call), holder = some index ∧ state.calls[index]? = some call ∧
    call.ticket = ticket ∧ is call = true

/-- One call carries the ticket at most, and the caches have it only while it may. -/
structure Custody (state : State) (ticket : JsString) (holder : Option Nat) : Prop where
  idle : ∀ (index : Nat) (call : Call), state.calls[index]? = some call → call.ticket = ticket →
    holder ≠ some index → call.phase.carries = false
  promoted : ∀ process, Tiers.Holds state.cache (.own process) (ticketKey ticket) →
    CarriedBy state ticket holder fun call => call.process = process && call.phase.isFound
  stored : Tiers.Holds state.cache .shared (ticketKey ticket) →
    holder = none ∨ CarriedBy state ticket holder fun call => call.phase.isOpen

structure Sound (state : State) : Prop where
  custody : ∀ ticket, ∃ holder, Custody state ticket holder
  named : ∀ level ticket, Tiers.Holds state.cache level (ticketKey ticket) →
    ∃ call ∈ state.calls, call.ticket = ticket
  late : ∀ (index : Nat) (call : Call), state.calls[index]? = some call → call.late = true →
    ∃ (earlier : Nat) (other : Call), earlier < index ∧ state.calls[earlier]? = some other ∧
      other.ticket = call.ticket ∧ other.phase.gave = true

variable {ticketTtlSeconds : Nat} {state next : State} {ticket : JsString} {holder : Option Nat}

theorem ticketKey_injective {other : JsString} (same : ticketKey ticket = ticketKey other) :
    ticket = other := List.append_cancel_left same

theorem sound_start : Sound State.start := by
  refine ⟨fun ticket => ⟨none, ?_⟩, ?_, ?_⟩
  · constructor <;> simp [State.start, Tiers.Holds, JsMap.empty]
  · simp [State.start, Tiers.Holds, JsMap.empty]
  · simp [State.start]

theorem carries_of_gave {phase : Phase} (gave : phase.gave = true) : phase.carries = true := by
  unfold Phase.gave at gave
  split at gave
  · rfl
  · cases gave

theorem Custody.isHolder {index : Nat} {call : Call} (custody : Custody state ticket holder)
    (found : state.calls[index]? = some call) (isTicket : call.ticket = ticket)
    (carries : call.phase.carries = true) : holder = some index := by
  by_contra apart
  rw [custody.idle index call found isTicket apart] at carries
  cases carries

theorem singleUse_of_sound (sound : Sound state) : SingleUse state := by
  have once : ∀ (first second : Nat) (one other : Call), state.calls[first]? = some one →
      state.calls[second]? = some other → one.ticket = other.ticket →
      one.phase.gave = true → other.phase.gave = true → first = second := by
    intro first second one other isOne isOther same oneGave otherGave
    obtain ⟨holder, custody⟩ := sound.custody one.ticket
    have isFirst := custody.isHolder isOne rfl (carries_of_gave oneGave)
    have isSecond := custody.isHolder isOther same.symm (carries_of_gave otherGave)
    exact Option.some.inj (isFirst.symm.trans isSecond)
  refine ⟨once, ?_⟩
  intro call member late
  obtain ⟨index, isCall⟩ := List.mem_iff_getElem?.mp member
  obtain ⟨earlier, other, before, isOther, same, otherGave⟩ := sound.late index call isCall late
  cases gave : call.phase.gave with
  | false => rfl
  | true =>
      have sameIndex := once index earlier call other isCall isOther same.symm gave otherGave
      omega

/-! A call that goes on. -/

section Moves

variable {cache : Levels TicketPayload} {index : Nat} {call : Call} {phase : Phase}

def moved (state : State) (cache : Levels TicketPayload) (index : Nat) (call : Call)
    (phase : Phase) : State :=
  { cache, calls := state.calls.set index (call.to phase) }

theorem moved_calls {other : Nat} {found : Call}
    (isFound : (moved state cache index call phase).calls[other]? = some found) :
    other = index ∧ found = call.to phase ∨
      other ≠ index ∧ state.calls[other]? = some found := by
  simp only [moved, List.getElem?_set] at isFound
  split at isFound
  · rename_i same
    split at isFound
    · exact .inl ⟨same.symm, (Option.some.inj isFound).symm⟩
    · cases isFound
  · rename_i apart
    exact .inr ⟨Ne.symm apart, isFound⟩

theorem moved_other {other : Nat} (apart : other ≠ index) :
    (moved state cache index call phase).calls[other]? = state.calls[other]? :=
  List.getElem?_set_ne (Ne.symm apart)

theorem moved_self (found : state.calls[index]? = some call) :
    (moved state cache index call phase).calls[index]? = some (call.to phase) :=
  List.getElem?_set_self (List.getElem?_eq_some_iff.mp found).1

theorem CarriedBy.moved {is : Call → Bool} (carried : CarriedBy state ticket holder is)
    (found : state.calls[index]? = some call) (isNot : call.ticket = ticket → is call = false) :
    CarriedBy (moved state cache index call phase) ticket holder is := by
  obtain ⟨other, carrier, isHolder, isCarrier, isTicket, meets⟩ := carried
  have apart : other ≠ index := by
    rintro rfl
    obtain rfl := Option.some.inj (found.symm.trans isCarrier)
    rw [isNot isTicket] at meets
    cases meets
  exact ⟨other, carrier, isHolder, by rw [moved_other apart, isCarrier], isTicket, meets⟩

theorem Custody.other (custody : Custody state ticket holder)
    (found : state.calls[index]? = some call) (apart : call.ticket ≠ ticket)
    (shrinks : ∀ level, Tiers.Holds cache level (ticketKey ticket) →
      Tiers.Holds state.cache level (ticketKey ticket)) :
    Custody (moved state cache index call phase) ticket holder where
  idle other carrier isFound isTicket free := by
    rcases moved_calls isFound with ⟨_, rfl⟩ | ⟨_, before⟩
    · exact absurd isTicket apart
    · exact custody.idle other carrier before isTicket free
  promoted process held :=
    (custody.promoted process (shrinks _ held)).moved found fun isTicket => absurd isTicket apart
  stored held := by
    rcases custody.stored (shrinks _ held) with isFree | carried
    · exact .inl isFree
    · exact .inr (carried.moved found fun isTicket => absurd isTicket apart)

theorem Custody.quiet (custody : Custody state ticket holder)
    (found : state.calls[index]? = some call) (isTicket : call.ticket = ticket)
    (closed : call.phase.isOpen = false) (quiet : phase.carries = false)
    (promotes : ∀ process, Tiers.Holds cache (.own process) (ticketKey ticket) →
      Tiers.Holds state.cache (.own process) (ticketKey ticket))
    (stores : Tiers.Holds cache .shared (ticketKey ticket) →
      call.phase.carries = true ∨ Tiers.Holds state.cache .shared (ticketKey ticket)) :
    ∃ later, Custody (moved state cache index call phase) ticket later := by
  have notFound : call.phase.isFound = false := by
    cases isPhase : call.phase <;> simp_all [Phase.isFound, Phase.isOpen]
  refine ⟨if holder = some index then none else holder, ?_, ?_, ?_⟩
  · intro other carrier isCall isCarrier free
    rcases moved_calls isCall with ⟨_, rfl⟩ | ⟨apart, before⟩
    · exact quiet
    · refine custody.idle other carrier before isCarrier ?_
      rintro rfl
      exact free (if_neg fun same => apart (Option.some.inj same))
  · intro process held
    have carried : CarriedBy (moved state cache index call phase) ticket holder _ :=
      (custody.promoted process (promotes process held)).moved found (by simp [notFound])
    have isNot : holder ≠ some index := by
      rintro rfl
      obtain ⟨other, carrier, isHolder, isCarrier, _, meets⟩ := carried
      obtain rfl := Option.some.inj isHolder
      obtain rfl := Option.some.inj ((moved_self found).symm.trans isCarrier)
      cases isPhase : phase <;> simp_all [Phase.isFound, Call.to, Phase.carries]
    rw [if_neg isNot]
    exact carried
  · intro held
    by_cases isHolder : holder = some index
    · exact .inl (if_pos isHolder)
    · rw [if_neg isHolder]
      rcases stores held with carries | before
      · exact absurd (custody.isHolder found isTicket carries) isHolder
      · rcases custody.stored before with isFree | carried
        · exact .inl isFree
        · exact .inr (carried.moved found fun _ => closed)

theorem Custody.taken (custody : Custody state ticket holder)
    (found : state.calls[index]? = some call) (isTicket : call.ticket = ticket)
    (alone : holder = none ∨ holder = some index)
    (promotes : ∀ process, Tiers.Holds cache (.own process) (ticketKey ticket) →
      call.process = process ∧ phase.isFound = true)
    (stores : Tiers.Holds cache .shared (ticketKey ticket) → phase.isOpen = true) :
    ∃ later, Custody (moved state cache index call phase) ticket later := by
  have carried {is : Call → Bool} (meets : is (call.to phase) = true) :
      CarriedBy (moved state cache index call phase) ticket (some index) is :=
    ⟨index, call.to phase, rfl, moved_self found, isTicket, meets⟩
  refine ⟨some index, ?_, ?_, ?_⟩
  · intro other carrier isCall isCarrier free
    rcases moved_calls isCall with ⟨rfl, _⟩ | ⟨apart, before⟩
    · exact absurd rfl free
    · refine custody.idle other carrier before isCarrier ?_
      rcases alone with rfl | rfl
      · simp
      · exact free
  · intro process held
    obtain ⟨isProcess, isFound⟩ := promotes process held
    exact carried (by simp [Call.to, isProcess, isFound])
  · intro held
    exact .inr (carried (stores held))

end Moves

theorem advance_holds {cache : Levels TicketPayload} {call : Call} {fails : Bool} {phase : Phase}
    (advanced : advance state.cache call fails = some (cache, phase)) {level : Tiers.Level}
    {key : JsString} (held : Tiers.Holds cache level key) :
    key = ticketKey call.ticket ∨ Tiers.Holds state.cache level key := by
  unfold advance at advanced
  split at advanced
  · obtain ⟨rfl, _⟩ := Prod.mk.inj (Option.some.inj advanced)
    cases fails with
    | true => exact .inr held
    | false =>
        rcases held.of_set with ⟨_, isKey⟩ | before
        · exact .inl isKey
        · exact .inr before
  · obtain ⟨rfl, _⟩ := Prod.mk.inj (Option.some.inj advanced)
    exact .inr held
  · obtain ⟨rfl, _⟩ := Prod.mk.inj (Option.some.inj advanced)
    rcases held.of_set with ⟨_, isKey⟩ | before
    · exact .inl isKey
    · exact .inr before
  · obtain ⟨rfl, _⟩ := Prod.mk.inj (Option.some.inj advanced)
    exact .inr held
  · obtain ⟨rfl, _⟩ := Prod.mk.inj (Option.some.inj advanced)
    exact .inr held.of_delete.2
  · obtain ⟨rfl, _⟩ := Prod.mk.inj (Option.some.inj advanced)
    cases fails with
    | true => exact .inr held
    | false => exact .inr held.of_delete.2
  · obtain ⟨rfl, _⟩ := Prod.mk.inj (Option.some.inj advanced)
    exact .inr held
  · cases advanced
  · cases advanced

theorem Custody.unpromoted {index : Nat} {call : Call} (custody : Custody state ticket (some index))
    (found : state.calls[index]? = some call) (notFound : call.phase.isFound = false)
    (process : Nat) : ¬ Tiers.Holds state.cache (.own process) (ticketKey ticket) := by
  intro held
  obtain ⟨other, carrier, isHolder, isCarrier, _, meets⟩ := custody.promoted process held
  obtain rfl := Option.some.inj isHolder
  obtain rfl := Option.some.inj (found.symm.trans isCarrier)
  simp [notFound] at meets

theorem custody_advance {index : Nat} {call : Call} {fails : Bool} {cache : Levels TicketPayload}
    {phase : Phase} (custody : Custody state call.ticket holder)
    (found : state.calls[index]? = some call) (clean : Undisturbed state (.advance index fails))
    (advanced : advance state.cache call fails = some (cache, phase)) :
    ∃ later, Custody (moved state cache index call phase) call.ticket later := by
  have alone : Alone state call fails := clean call found
  cases isPhase : call.phase with
  | storing entry =>
      rw [advance, isPhase] at advanced
      obtain ⟨rfl, rfl⟩ := Prod.mk.inj (Option.some.inj advanced)
      refine custody.quiet found rfl (by rw [isPhase]; rfl) rfl ?_ ?_
      · intro process held
        cases fails with
        | true => exact held
        | false =>
            rcases held.of_set with ⟨isLevel, _⟩ | before
            · cases isLevel
            · exact before
      · exact fun _ => .inl (by rw [isPhase]; rfl)
  | asking =>
      rw [advance, isPhase] at advanced
      obtain ⟨rfl, rfl⟩ := Prod.mk.inj (Option.some.inj advanced)
      cases hit : redisGet state.cache (ticketKey call.ticket) fails with
      | none =>
          exact custody.quiet found rfl (by rw [isPhase]; rfl) rfl (fun _ held => held) fun held =>
            .inr held
      | some entry =>
          have free : NoneOpen state call.ticket := by
            rw [Alone, isPhase] at alone
            rcases alone with missed | free
            · rw [hit] at missed
              cases missed
            · exact free
          have isFree : holder = none := by
            rcases custody.stored (Tiers.holds_iff.mpr ⟨entry, redisGet_hit hit⟩) with isFree | held
            · exact isFree
            · obtain ⟨other, carrier, _, isCarrier, isTicket, isOpen⟩ := held
              simp [free carrier (List.mem_of_getElem? isCarrier) isTicket] at isOpen
          refine custody.taken found rfl (.inl isFree) ?_ fun _ => rfl
          intro process held
          obtain ⟨other, carrier, isHolder, _⟩ := custody.promoted process held
          rw [isFree] at isHolder
          cases isHolder
  | answered hit =>
      cases hit with
      | none =>
          rw [advance, isPhase] at advanced
          obtain ⟨rfl, rfl⟩ := Prod.mk.inj (Option.some.inj advanced)
          exact custody.quiet found rfl (by rw [isPhase]; rfl) rfl (fun _ held => held) fun held =>
            .inr held
      | some entry =>
          rw [advance, isPhase] at advanced
          obtain ⟨rfl, rfl⟩ := Prod.mk.inj (Option.some.inj advanced)
          obtain rfl := custody.isHolder found rfl (by rw [isPhase]; rfl)
          refine custody.taken found rfl (.inr rfl) ?_ fun _ => rfl
          intro process held
          rcases held.of_set with ⟨isLevel, _⟩ | before
          · exact ⟨(Tiers.Level.own.inj isLevel).symm, rfl⟩
          · exact absurd before (custody.unpromoted found (by rw [isPhase]; rfl) process)
  | found payload =>
      rw [advance, isPhase] at advanced
      obtain ⟨rfl, rfl⟩ := Prod.mk.inj (Option.some.inj advanced)
      obtain rfl := custody.isHolder found rfl (by rw [isPhase]; rfl)
      refine custody.taken found rfl (.inr rfl) ?_ fun _ => rfl
      intro process held
      obtain ⟨apart, before⟩ := held.of_delete
      obtain ⟨other, carrier, isHolder, isCarrier, _, meets⟩ := custody.promoted process before
      obtain rfl := Option.some.inj isHolder
      obtain rfl := Option.some.inj (found.symm.trans isCarrier)
      rw [Bool.and_eq_true, decide_eq_true_eq] at meets
      exact absurd (by rw [meets.1]) apart
  | deleting payload =>
      rw [advance, isPhase] at advanced
      obtain ⟨rfl, rfl⟩ := Prod.mk.inj (Option.some.inj advanced)
      obtain rfl := custody.isHolder found rfl (by rw [isPhase]; rfl)
      refine custody.taken found rfl (.inr rfl) ?_ ?_
      · intro process held
        refine absurd ?_ (custody.unpromoted found (by rw [isPhase]; rfl) process)
        cases fails with
        | true => exact held
        | false => exact held.of_delete.2
      · intro held
        cases fails with
        | true =>
            obtain ⟨entry, isEntry⟩ := Tiers.holds_iff.mp held
            rw [Alone, isPhase] at alone
            rcases alone with landed | isGone
            · cases landed
            · rw [redisDelete, if_pos rfl, isGone] at isEntry
              cases isEntry
        | false => exact absurd rfl held.of_delete.1
  | deleted payload =>
      rw [advance, isPhase] at advanced
      obtain ⟨rfl, rfl⟩ := Prod.mk.inj (Option.some.inj advanced)
      obtain rfl := custody.isHolder found rfl (by rw [isPhase]; rfl)
      refine custody.taken found rfl (.inr rfl) ?_ ?_
      · intro process held
        exact absurd held (custody.unpromoted found (by rw [isPhase]; rfl) process)
      · intro held
        rcases custody.stored held with isFree | ⟨other, carrier, isHolder, isCarrier, _, isOpen⟩
        · cases isFree
        · obtain rfl := Option.some.inj isHolder
          obtain rfl := Option.some.inj (found.symm.trans isCarrier)
          simp [isPhase, Phase.isOpen] at isOpen
  | issued => simp [advance, isPhase] at advanced
  | returned payload => simp [advance, isPhase] at advanced

theorem sound_advance (sound : Sound state) {index : Nat} {call : Call} {fails : Bool}
    {cache : Levels TicketPayload} {phase : Phase} (found : state.calls[index]? = some call)
    (clean : Undisturbed state (.advance index fails))
    (advanced : advance state.cache call fails = some (cache, phase)) :
    Sound (moved state cache index call phase) where
  custody ticket := by
    obtain ⟨holder, custody⟩ := sound.custody ticket
    by_cases isTicket : call.ticket = ticket
    · subst ticket
      exact custody_advance custody found clean advanced
    · refine ⟨holder, custody.other found isTicket fun level held => ?_⟩
      rcases advance_holds advanced held with isKey | before
      · exact absurd (ticketKey_injective isKey.symm) isTicket
      · exact before
  named level ticket held := by
    rcases advance_holds advanced held with isKey | before
    · exact ⟨call.to phase, List.mem_of_getElem? (moved_self found),
        (ticketKey_injective isKey).symm⟩
    · obtain ⟨other, member, isTicket⟩ := sound.named level ticket before
      obtain ⟨place, isOther⟩ := List.mem_iff_getElem?.mp member
      by_cases same : place = index
      · subst place
        obtain rfl := Option.some.inj (found.symm.trans isOther)
        exact ⟨call.to phase, List.mem_of_getElem? (moved_self found), isTicket⟩
      · exact ⟨other, List.mem_of_getElem? (by rw [moved_other same, isOther]), isTicket⟩
  late place other isOther isLate := by
    have before : ∃ earlier, state.calls[place]? = some earlier ∧ earlier.ticket = other.ticket ∧
        earlier.late = true := by
      rcases moved_calls isOther with ⟨rfl, rfl⟩ | ⟨_, before⟩
      · exact ⟨call, found, rfl, isLate⟩
      · exact ⟨other, before, rfl, isLate⟩
    obtain ⟨former, isFormer, sameTicket, wasLate⟩ := before
    obtain ⟨earlier, giver, isEarlier, isGiver, ofTicket, gave⟩ :=
      sound.late place former isFormer wasLate
    -- a call that has returned does not go on
    have apart : earlier ≠ index := by
      rintro rfl
      obtain rfl := Option.some.inj (found.symm.trans isGiver)
      cases isPhase : call.phase <;> simp_all [Phase.gave, advance]
    exact ⟨earlier, giver, isEarlier, by rw [moved_other apart, isGiver],
      ofTicket.trans sameTicket, gave⟩

/-! A call that begins. -/

section Begins

variable {cache : Levels TicketPayload} {process : Nat} {named : JsString} {phase : Phase}

theorem begin_calls {index : Nat} {call : Call}
    (found : (begin state process named phase).calls[index]? = some call) :
    state.calls[index]? = some call ∨
      index = state.calls.length ∧ call =
        { process, ticket := named, late := gaveTicket state named, phase } := by
  simp only [begin, List.getElem?_append] at found
  split at found
  · exact .inl found
  · rename_i bound
    obtain ⟨isZero, isNew⟩ := List.getElem?_eq_some_iff.mp found
    have isLast : index = state.calls.length := by
      simp only [List.length_singleton] at isZero
      omega
    subst index
    simp only [Nat.sub_self, List.getElem_cons_zero] at isNew
    exact .inr ⟨rfl, isNew.symm⟩

theorem begin_earlier {index : Nat} {call : Call} (found : state.calls[index]? = some call) :
    (begin state process named phase).calls[index]? = some call :=
  (List.getElem?_append_left (List.getElem?_eq_some_iff.mp found).1).trans found

theorem sound_begin (sound : Sound state) (carries : phase.carries = true → Fresh state named)
    (shrinks : ∀ level key, Tiers.Holds cache level key → Tiers.Holds state.cache level key) :
    Sound { begin state process named phase with cache } where
  custody ticket := by
    obtain ⟨holder, custody⟩ := sound.custody ticket
    have earlier {is : Call → Bool} (carried : CarriedBy state ticket holder is) :
        CarriedBy { begin state process named phase with cache } ticket holder is := by
      obtain ⟨index, call, isHolder, found, isTicket, meets⟩ := carried
      exact ⟨index, call, isHolder, begin_earlier found, isTicket, meets⟩
    by_cases isNew : named = ticket ∧ phase.carries = true
    · obtain ⟨rfl, isCarried⟩ := isNew
      have fresh := carries isCarried
      have lacks : ∀ level, ¬ Tiers.Holds cache level (ticketKey named) := by
        intro level held
        obtain ⟨call, member, isTicket⟩ := sound.named level named (shrinks _ _ held)
        exact fresh call member isTicket
      refine ⟨some state.calls.length, ?_, ?_, ?_⟩
      · intro index call found isTicket free
        rcases begin_calls found with before | ⟨rfl, _⟩
        · exact absurd isTicket (fresh call (List.mem_of_getElem? before))
        · exact absurd rfl free
      · exact fun process held => absurd held (lacks _)
      · exact fun held => absurd held (lacks _)
    · refine ⟨holder, ?_, ?_, ?_⟩
      · intro index call found isTicket free
        rcases begin_calls found with before | ⟨_, rfl⟩
        · exact custody.idle index call before isTicket free
        · cases isCarried : phase.carries with
          | false => rfl
          | true => exact absurd ⟨isTicket, isCarried⟩ isNew
      · exact fun process held => earlier (custody.promoted process (shrinks _ _ held))
      · intro held
        rcases custody.stored (shrinks _ _ held) with isFree | carried
        · exact .inl isFree
        · exact .inr (earlier carried)
  named level ticket held := by
    obtain ⟨call, member, isTicket⟩ := sound.named level ticket (shrinks _ _ held)
    exact ⟨call, List.mem_append_left _ member, isTicket⟩
  late index call found isLate := by
    rcases begin_calls found with before | ⟨rfl, rfl⟩
    · obtain ⟨earlier, other, isEarlier, isOther, sameTicket, gave⟩ :=
        sound.late index call before isLate
      exact ⟨earlier, other, isEarlier, begin_earlier isOther, sameTicket, gave⟩
    · obtain ⟨other, member, meets⟩ := List.any_eq_true.mp (show gaveTicket state named = true from
        isLate)
      rw [Bool.and_eq_true, decide_eq_true_eq] at meets
      obtain ⟨earlier, isOther⟩ := List.mem_iff_getElem?.mp member
      exact ⟨earlier, other, (List.getElem?_eq_some_iff.mp isOther).1, begin_earlier isOther,
        meets.1, meets.2⟩

end Begins

theorem memory_misses (sound : Sound state) {process : Nat} {now : Timestamp}
    (clean : Undisturbed state (.consume process ticket now)) :
    (memoryGet state.cache process (ticketKey ticket) now).1 = none := by
  cases hit : (memoryGet state.cache process (ticketKey ticket) now).1 with
  | none => rfl
  | some entry =>
      obtain ⟨holder, custody⟩ := sound.custody ticket
      obtain ⟨index, call, _, found, isTicket, meets⟩ :=
        custody.promoted process (Tiers.holds_iff.mpr ⟨entry, memoryGet_hit hit⟩)
      rcases clean with missed | free
      · rw [hit] at missed
        cases missed
      · have isClosed := free call (List.mem_of_getElem? found) isTicket
        cases isPhase : call.phase <;> simp_all [Phase.isFound, Phase.isOpen]

theorem memoryGet_shrinks {cache : Levels TicketPayload} {process : Nat} {asked : JsString}
    {now : Timestamp} (level : Tiers.Level) (key : JsString)
    (held : Tiers.Holds (memoryGet cache process asked now).2 level key) :
    Tiers.Holds cache level key := by
  unfold memoryGet at held
  split at held
  · split at held
    · exact held.of_delete.2
    · exact held
  · exact held

theorem sound_step {action : Action} (sound : Sound state) (clean : Undisturbed state action)
    (taken : step ticketTtlSeconds state action = some next) : Sound next := by
  cases action with
  | issue process ticket payload now =>
      simp only [step] at taken
      split at taken
      · rename_i fresh
        obtain rfl := Option.some.inj taken
        exact sound_begin sound (fun _ => fresh) fun _ _ held => held
      · cases taken
  | consume process ticket now =>
      obtain rfl := Option.some.inj taken
      simp only [consume, memory_misses sound clean]
      exact sound_begin sound (fun carries => by cases carries) memoryGet_shrinks
  | advance index fails =>
      simp only [step] at taken
      split at taken
      · rename_i call found
        obtain ⟨⟨cache, phase⟩, advanced, rfl⟩ := Option.map_eq_some_iff.mp taken
        exact sound_advance sound found clean advanced
      · cases taken
  | evict level key =>
      obtain rfl := Option.some.inj taken
      refine ⟨fun ticket => ?_, ?_, sound.late⟩
      · obtain ⟨holder, custody⟩ := sound.custody ticket
        exact ⟨holder, custody.idle, fun process held => custody.promoted process held.of_delete.2,
          fun held => custody.stored held.of_delete.2⟩
      · exact fun level ticket held => sound.named level ticket held.of_delete.2

/-- Where no lookup finds a ticket that another call is about to delete, and no deletion of it is
lost, every ticket is used once at most. -/
theorem singleUse_of_undisturbed (ticketTtlSeconds : Nat) (actions : List Action)
    (guarded : Guarded (step ticketTtlSeconds) Undisturbed State.start actions) :
    Always (step ticketTtlSeconds) SingleUse State.start actions := by
  have sound : Always (step ticketTtlSeconds) Sound State.start actions :=
    always_of_guarded (step ticketTtlSeconds)
      (fun state action next sound clean taken => sound_step sound clean taken) sound_start guarded
  exact sound.mono _ fun state sound => singleUse_of_sound sound

instance (state : State) (call : Call) (fails : Bool) : Decidable (Alone state call fails) := by
  unfold Alone
  split <;> infer_instance

instance (state : State) (action : Action) : Decidable (Undisturbed state action) := by
  cases action <;> unfold Undisturbed <;> infer_instance

/-! A ticket that two sockets present. -/

def samplePayload : TicketPayload := { sessionId := js "s", discordId := js "u" }

def issued : List Action := [.issue 0 (js "t") samplePayload 0, .advance 0 false]

def advancing (call : Nat) (count : Nat) : List Action := List.replicate count (.advance call false)

/-- The second socket comes when the first one has been let in. -/
theorem singleUse_presented_again :
    Always (step 30) SingleUse State.start
      [issued, [.consume 0 (js "t") 1], advancing 1 5, [.consume 1 (js "t") 2],
        advancing 2 2].flatten :=
  singleUse_of_undisturbed 30 _ (by decide +kernel)

def gaveSample (state : State) (index : Nat) : Bool :=
  state.calls[index]?.any fun call => call.ticket = js "t" && call.phase.gave

theorem gaveSample_once (state : State) (single : SingleUse state) :
    (!(gaveSample state 1 && gaveSample state 2)) = true := by
  rw [Bool.not_eq_true', Bool.and_eq_false_iff]
  by_contra both
  simp only [not_or, Bool.not_eq_false, gaveSample, Option.any_eq_true, Bool.and_eq_true,
    decide_eq_true_eq] at both
  obtain ⟨⟨first, isFirst, ofFirst, firstGave⟩, second, isSecond, ofSecond, secondGave⟩ := both
  have same := single.once 1 2 first second isFirst isSecond (ofFirst.trans ofSecond.symm)
    firstGave secondGave
  cases same

/-- Both sockets ask Redis before either of them deletes. -/
theorem ticket_used_twice :
    ¬ ∀ (ticketTtlSeconds : Nat) (actions : List Action),
      Always (step ticketTtlSeconds) SingleUse State.start actions := by
  intro all
  refine not_always (step 30) (fun state => !(gaveSample state 1 && gaveSample state 2))
    gaveSample_once ?_
    (all 30 [issued, [.consume 0 (js "t") 1, .consume 1 (js "t") 1], advancing 1 1,
      advancing 2 1, advancing 1 4, advancing 2 4].flatten)
  decide +kernel

end Tickets
