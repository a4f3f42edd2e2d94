import ArmstrongBot.Library.StepMachine
import ArmstrongBot.Library.Tiers

/-! Responses that several processes cache under keys of the requests they answer. What is kept of a
response is the request it was made for. -/

namespace KeyedCache

open StepMachine Tiers

variable {K R : Type*}

/-- A request that looks up its key in a process. -/
structure Call (K R : Type*) where
  process : Nat
  key : K
  asker : R

/-- `loading` has the loaders in flight in each process, `writes` what is on its way to the shared
level, and `answers` who asked and whose response it was. -/
structure State (K R : Type*) where
  cached : Tiers K R
  loading : Tiers K R
  asked : List (Call K R)
  joined : List (Call K R)
  writes : List (K × R)
  answers : List (R × R)

def start : State K R :=
  { cached := .empty, loading := .empty, asked := [], joined := [], writes := [], answers := [] }

inductive Event (K R : Type*)
  | ask (process : Nat) (asker : R)
  | resume (index : Nat) (fails : Bool)
  | load (process : Nat) (key : K)
  | failLoad (process : Nat) (key : K)
  | land (index : Nat) (fails : Bool)
  | drop (level : Level) (key : K)

variable [DecidableEq K]

/-- The process's own level is looked up in the call itself. -/
def lookUp (state : State K R) (call : Call K R) : State K R :=
  match state.cached.get (.own call.process, call.key) with
  | some origin => { state with answers := state.answers ++ [(call.asker, origin)] }
  | none => { state with asked := state.asked ++ [call] }

/-- A hit on the shared level is kept on the own one; without one the call joins the loader in flight
or starts it. -/
def goOn (state : State K R) (call : Call K R) (hit : Option R) : State K R :=
  match hit with
  | some origin =>
      { state with
        cached := state.cached.set (.own call.process, call.key) origin
        answers := state.answers ++ [(call.asker, origin)] }
  | none =>
      { state with
        joined := state.joined ++ [call]
        loading :=
          if (state.loading.get (.own call.process, call.key)).isSome then state.loading
          else state.loading.set (.own call.process, call.key) call.asker }

def waits (process : Nat) (key : K) (call : Call K R) : Bool := call.process = process && call.key = key

def finishLoad (state : State K R) (process : Nat) (key : K) (origin : R) : State K R :=
  { state with
    loading := state.loading.delete (.own process, key)
    cached := state.cached.set (.own process, key) origin
    writes := state.writes ++ [(key, origin)]
    joined := state.joined.filter fun call => !waits process key call
    answers := state.answers ++
      (state.joined.filter (waits process key)).map fun call => (call.asker, origin) }

variable (keyOf : R → Option K)

/-- A request without a key is not answered from the cache. -/
def step (state : State K R) : Event K R → Option (State K R)
  | .ask process asker =>
      match keyOf asker with
      | some key => some (lookUp state { process, key, asker })
      | none => some state
  | .resume index fails =>
      state.asked[index]?.map fun call =>
        goOn { state with asked := state.asked.eraseIdx index } call
          (if fails then none else state.cached.get (.shared, call.key))
  | .load process key =>
      (state.loading.get (.own process, key)).map (finishLoad state process key)
  | .failLoad process key =>
      some { state with
        loading := state.loading.delete (.own process, key)
        joined := state.joined.filter fun call => !waits process key call }
  | .land index fails =>
      state.writes[index]?.map fun write =>
        { state with
          writes := state.writes.eraseIdx index
          cached := if fails then state.cached else state.cached.set (.shared, write.1) write.2 }
  | .drop level key => some { state with cached := state.cached.delete (level, key) }

def AsksOnly (requests : R → Prop) (events : List (Event K R)) : Prop :=
  ∀ event ∈ events, ∀ process asker, event = .ask process asker → requests asker

variable {keyOf} {requests : R → Prop}

variable (keyOf requests) in
/-- The request is one of those made, and the key is its own. -/
def At (key : K) (request : R) : Prop := requests request ∧ keyOf request = some key

variable (keyOf requests) in
/-- Every response is filed under the key of the request it was made for. -/
structure Filed (state : State K R) : Prop where
  cached : Every (At keyOf requests) state.cached
  loading : Every (At keyOf requests) state.loading
  asked : ∀ call ∈ state.asked, At keyOf requests call.key call.asker
  joined : ∀ call ∈ state.joined, At keyOf requests call.key call.asker
  writes : ∀ write ∈ state.writes, At keyOf requests write.1 write.2
  answers : ∀ answer ∈ state.answers,
    ∃ key, At keyOf requests key answer.1 ∧ At keyOf requests key answer.2

omit [DecidableEq K] in
theorem filed_start : Filed keyOf requests (start : State K R) where
  cached := every_empty
  loading := every_empty
  asked := by simp [start]
  joined := by simp [start]
  writes := by simp [start]
  answers := by simp [start]

section Steps

variable {state : State K R} {call : Call K R}

omit [DecidableEq K] in
theorem Filed.answer (filed : Filed keyOf requests state)
    (asks : At keyOf requests call.key call.asker) {origin : R}
    (isOrigin : At keyOf requests call.key origin) :
    ∀ answer ∈ state.answers ++ [(call.asker, origin)],
      ∃ key, At keyOf requests key answer.1 ∧ At keyOf requests key answer.2 := by
  intro answer member
  rcases List.mem_append.mp member with earlier | isNew
  · exact filed.answers answer earlier
  · rw [List.mem_singleton.mp isNew]
    exact ⟨call.key, asks, isOrigin⟩

theorem Filed.lookUp (filed : Filed keyOf requests state)
    (asks : At keyOf requests call.key call.asker) : Filed keyOf requests (lookUp state call) := by
  unfold KeyedCache.lookUp
  split
  · rename_i origin hit
    exact { filed with answers := filed.answer asks (filed.cached.get hit) }
  · refine { filed with asked := ?_ }
    intro other member
    rcases List.mem_append.mp member with earlier | isNew
    · exact filed.asked other earlier
    · rw [List.mem_singleton.mp isNew]
      exact asks

theorem Filed.goOn (filed : Filed keyOf requests state)
    (asks : At keyOf requests call.key call.asker) {hit : Option R}
    (isHit : ∀ origin ∈ hit, At keyOf requests call.key origin) :
    Filed keyOf requests (goOn state call hit) := by
  unfold KeyedCache.goOn
  split
  · rename_i origin
    have isOrigin := isHit origin rfl
    exact { filed with
      cached := filed.cached.set _ isOrigin
      answers := filed.answer asks isOrigin }
  · refine { filed with loading := ?_, joined := ?_ }
    · show Every _ (if _ then _ else _)
      split
      · exact filed.loading
      · exact filed.loading.set _ asks
    · intro other member
      rcases List.mem_append.mp member with earlier | isNew
      · exact filed.joined other earlier
      · rw [List.mem_singleton.mp isNew]
        exact asks

theorem Filed.finishLoad (filed : Filed keyOf requests state) {process : Nat} {key : K} {origin : R}
    (isOrigin : At keyOf requests key origin) :
    Filed keyOf requests (finishLoad state process key origin) where
  cached := filed.cached.set _ isOrigin
  loading := filed.loading.delete _
  asked := filed.asked
  joined := fun call member => filed.joined call (List.mem_of_mem_filter member)
  writes := by
    intro write member
    rcases List.mem_append.mp member with earlier | isNew
    · exact filed.writes write earlier
    · rw [List.mem_singleton.mp isNew]
      exact isOrigin
  answers := by
    intro answer member
    rcases List.mem_append.mp member with earlier | isNew
    · exact filed.answers answer earlier
    · obtain ⟨call, isCall, rfl⟩ := List.mem_map.mp isNew
      obtain ⟨joined, waiting⟩ := List.mem_filter.mp isCall
      have sameKey : call.key = key := by
        simp only [waits, Bool.and_eq_true, decide_eq_true_eq] at waiting
        exact waiting.2
      exact ⟨key, sameKey ▸ filed.joined call joined, isOrigin⟩

theorem Filed.step (filed : Filed keyOf requests state) {event : Event K R} {next : State K R}
    (asked : ∀ process asker, event = .ask process asker → requests asker)
    (taken : step keyOf state event = some next) : Filed keyOf requests next := by
  cases event with
  | ask process asker =>
      simp only [KeyedCache.step] at taken
      split at taken
      · rename_i key isKey
        obtain rfl := Option.some.inj taken
        exact filed.lookUp ⟨asked process asker rfl, isKey⟩
      · obtain rfl := Option.some.inj taken
        exact filed
  | resume index fails =>
      obtain ⟨call, isCall, rfl⟩ := Option.map_eq_some_iff.mp taken
      have member := List.mem_of_getElem? isCall
      have taken : Filed keyOf requests { state with asked := state.asked.eraseIdx index } :=
        { filed with
          asked := fun other later => filed.asked other (List.mem_of_mem_eraseIdx later) }
      refine taken.goOn (filed.asked call member) fun origin hit => ?_
      split at hit
      · cases hit
      · exact filed.cached.get hit
  | load process key =>
      obtain ⟨origin, isOrigin, rfl⟩ := Option.map_eq_some_iff.mp taken
      exact filed.finishLoad (filed.loading.get isOrigin)
  | failLoad process key =>
      obtain rfl := Option.some.inj taken
      exact { filed with
        loading := filed.loading.delete _
        joined := fun call member => filed.joined call (List.mem_of_mem_filter member) }
  | land index fails =>
      obtain ⟨write, isWrite, rfl⟩ := Option.map_eq_some_iff.mp taken
      have filedWrite := filed.writes write (List.mem_of_getElem? isWrite)
      refine { filed with cached := ?_, writes := ?_ }
      · show Every _ (if _ then _ else _)
        split
        · exact filed.cached
        · exact filed.cached.set _ filedWrite
      · exact fun other later => filed.writes other (List.mem_of_mem_eraseIdx later)
  | drop level key =>
      obtain rfl := Option.some.inj taken
      exact { filed with cached := filed.cached.delete _ }

end Steps

theorem Filed.run {state final : State K R} {events : List (Event K R)}
    (filed : Filed keyOf requests state) (asksOnly : AsksOnly requests events)
    (taken : StepMachine.run (KeyedCache.step keyOf) state events = some final) :
    Filed keyOf requests final := by
  induction events generalizing state with
  | nil =>
      obtain rfl := Option.some.inj taken
      exact filed
  | cons event rest ih =>
      obtain ⟨next, first, later⟩ := (run_cons _).mp taken
      exact ih (filed.step (asksOnly event List.mem_cons_self) first)
        (fun other member => asksOnly other (List.mem_cons_of_mem _ member)) later

/-- A request is loaded, and the next one with its key has the same response. -/
theorem answered {asker origin : R} {key : K} (askerKey : keyOf asker = some key)
    (originKey : keyOf origin = some key) :
    ∃ final, run (step keyOf) start
        [.ask 0 origin, .resume 0 false, .load 0 key, .ask 0 asker] = some final ∧
      (asker, origin) ∈ final.answers := by
  simp [run, step, askerKey, originKey, start, lookUp, goOn, finishLoad, JsMap.empty, JsMap.get,
    JsMap.set, JsMap.setIn]

/-- In every run each answer is right for who gets it if and only if the keys tell requests apart
wherever one's response is not right for the other. -/
theorem answers_right_iff_keys_apart (requests : R → Prop) (right : R → R → Prop) :
    (∀ events final, AsksOnly requests events → run (step keyOf) start events = some final →
      ∀ answer ∈ final.answers, right answer.1 answer.2) ↔
    ∀ asker origin key, requests asker → requests origin → keyOf asker = some key →
      keyOf origin = some key → right asker origin := by
  constructor
  · intro answersRight asker origin key asks isOrigin askerKey originKey
    obtain ⟨final, taken, member⟩ := answered askerKey originKey
    refine answersRight _ final ?_ taken _ member
    intro event isEvent process other isAsk
    subst isAsk
    simp only [List.mem_cons, Event.ask.injEq, reduceCtorEq, List.not_mem_nil, or_false,
      false_or] at isEvent
    rcases isEvent with ⟨_, rfl⟩ | ⟨_, rfl⟩
    · exact isOrigin
    · exact asks
  · intro apart events final asksOnly taken answer member
    obtain ⟨key, asks, isOrigin⟩ := (filed_start.run asksOnly taken).answers answer member
    exact apart answer.1 answer.2 key asks.1 isOrigin.1 asks.2 isOrigin.2

end KeyedCache
