import ArmstrongBot.Library.StepMachine

/-! `CacheService` of one process, seen at one key: the memory tier, the Redis tier, the loader
under way, and the calls of `get`, `getOrSet` and `delete`. Other keys touch this one only when
the memory tier is full and evicts it. -/

namespace Cache

open StepMachine

variable {V : Type}

/-- A value or `null`, and how many deletes had been called when it was read from the source. -/
structure CacheEntry (V : Type) where
  value : Option V
  read : Nat
  deriving DecidableEq

/-- The loader of the `getOrSet` that found nothing; the key is in `inflight` until it is done. -/
structure Loader (V : Type) where
  l2Only : Bool
  read : Option (CacheEntry V)
  deriving DecidableEq

inductive Phase (V : Type)
  | asked
  | answered (hit : Option (CacheEntry V))
  | joined
  | missed
  | yielded (entry : CacheEntry V)
  | failed
  deriving DecidableEq

/-- A call of `get`, or of `getOrSet` where it `fills`; `floor` is the last of the deletes that
had returned when it started. -/
structure Call (V : Type) where
  fills : Bool
  l2Only : Bool
  floor : Nat
  phase : Phase V
  deriving DecidableEq

/-- A call of `delete`, numbered from one; `landed` once Redis has taken its command or failed. -/
structure Delete where
  number : Nat
  landed : Bool
  deriving DecidableEq

structure State (V : Type) where
  called : Nat
  returned : Nat
  deletes : List Delete
  l1 : Option (CacheEntry V)
  l2 : Option (CacheEntry V)
  writes : List (CacheEntry V)
  loader : Option (Loader V)
  calls : List (Call V)

def State.start : State V :=
  { called := 0, returned := 0, deletes := [], l1 := none, l2 := none, writes := [], loader := none
    calls := [] }

/-- The steps between two awaits. A Redis command takes effect some time after it is issued, or
fails and is only logged. -/
inductive Action (V : Type)
  | call (fills l2Only : Bool)
  | answer (call : Nat) (fails : Bool)
  | resume (call : Nat)
  | read (value : Option V)
  | load
  | failLoad
  | landWrite (index : Nat) (fails : Bool)
  | delete
  | landDelete (index : Nat) (fails : Bool)
  | returns (index : Nat)
  | dropL1
  | expireL2

/-- What is left of a call once its `get` has answered: a value is returned, `null` only by `get`;
a `getOrSet` joins the loader that is in flight or starts its own. -/
def answerPhase (call : Call V) (hit : Option (CacheEntry V)) : Phase V :=
  match hit with
  | some entry =>
      if entry.value.isSome then .yielded entry else if call.fills then .joined else .missed
  | none => if call.fills then .joined else .missed

def Call.answer (call : Call V) (hit : Option (CacheEntry V)) : Call V :=
  { call with phase := answerPhase call hit }

def startsLoader (state : State V) (call : Call V) (hit : Option (CacheEntry V)) :
    Option (Loader V) :=
  match answerPhase call hit with
  | .joined => some (state.loader.getD { l2Only := call.l2Only, read := none })
  | _ => state.loader

/-- The first tier is asked in the call itself. -/
def startCall (state : State V) (fills l2Only : Bool) : State V :=
  let call : Call V := { fills, l2Only, floor := state.returned, phase := .asked }
  match state.l1 with
  | some entry =>
      { state with
        calls := state.calls ++ [call.answer (some entry)]
        loader := startsLoader state call (some entry) }
  | none => { state with calls := state.calls ++ [call] }

/-- A hit of the second tier is promoted into the first. -/
def resumeCall (state : State V) (index : Nat) (call : Call V) (hit : Option (CacheEntry V)) :
    State V :=
  { state with
    calls := state.calls.set index (call.answer hit)
    loader := startsLoader state call hit
    l1 := hit.or state.l1 }

def settleJoined (phase : Phase V) (call : Call V) : Call V :=
  match call.phase with
  | .joined => { call with phase }
  | _ => call

/-- The loader is out of `inflight`, and whoever joined it gets what it brought. -/
def settle (state : State V) (phase : Phase V) : State V :=
  { state with loader := none, calls := state.calls.map (settleJoined phase) }

/-- `set`, behind the loader: the first tier at once, a command for the second. -/
def finishLoad (state : State V) (l2Only : Bool) (entry : CacheEntry V) : State V :=
  { settle state (.yielded entry) with
    l1 := if l2Only then state.l1 else some entry
    writes := state.writes ++ [entry] }

def step (state : State V) : Action V → Option (State V)
  | .call fills l2Only => some (startCall state fills l2Only)
  | .answer index fails =>
      match state.calls[index]? with
      | some call =>
          match call.phase with
          | .asked => some { state with
              calls := state.calls.set index
                { call with phase := .answered (if fails then none else state.l2) } }
          | _ => none
      | none => none
  | .resume index =>
      match state.calls[index]? with
      | some call =>
          match call.phase with
          | .answered hit => some (resumeCall state index call hit)
          | _ => none
      | none => none
  | .read value =>
      match state.loader with
      | some loader =>
          if loader.read.isSome then none
          else some { state with
            loader := some { loader with read := some { value, read := state.called } } }
      | none => none
  | .load =>
      match state.loader with
      | some loader => loader.read.map fun entry => finishLoad state loader.l2Only entry
      | none => none
  | .failLoad => if state.loader.isSome then some (settle state .failed) else none
  | .landWrite index fails =>
      state.writes[index]?.map fun entry =>
        { state with
          writes := state.writes.eraseIdx index
          l2 := if fails then state.l2 else some entry }
  | .delete => some { state with
      called := state.called + 1
      deletes := state.deletes ++ [{ number := state.called + 1, landed := false }]
      l1 := none }
  | .landDelete index fails =>
      match state.deletes[index]? with
      | some delete =>
          if delete.landed then none
          else some { state with
            deletes := state.deletes.set index { delete with landed := true }
            l2 := if fails then state.l2 else none }
      | none => none
  | .returns index =>
      match state.deletes[index]? with
      | some delete =>
          if delete.landed then
            some { state with
              deletes := state.deletes.eraseIdx index
              returned := max state.returned delete.number }
          else none
      | none => none
  | .dropL1 => some { state with l1 := none }
  | .expireL2 => some { state with l2 := none }

/-- What a call gives its caller was read after every delete that had returned before the call. -/
def YieldsFresh (state : State V) : Prop :=
  ∀ call ∈ state.calls, ∀ entry, call.phase = .yielded entry → call.floor ≤ entry.read

/-! What a later call may still be given. -/

def Call.hit (call : Call V) : Option (CacheEntry V) :=
  match call.phase with
  | .answered hit => hit
  | _ => none

/-- The entries in either tier, on their way to the second, or handed to a call by it. -/
def entries (state : State V) : List (CacheEntry V) :=
  state.l1.toList ++ state.l2.toList ++ state.writes ++ state.calls.filterMap Call.hit

/-- Nothing that was read before the delete is cached, on its way into a tier, or in the hands of
the loader. A cached `null` is never given to anyone. -/
structure Fresh (floor : Nat) (state : State V) : Prop where
  cached : ∀ entry ∈ entries state, entry.value.isSome = true → floor ≤ entry.read
  loaded : ∀ loader ∈ state.loader, ∀ entry ∈ loader.read, floor ≤ entry.read

/-- A delete returns only when nothing from before it is left. -/
def ReturnsClean (state : State V) : Action V → Prop
  | .returns index => ∀ delete ∈ state.deletes[index]?, Fresh delete.number state
  | _ => True

end Cache
