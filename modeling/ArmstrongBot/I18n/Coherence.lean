import ArmstrongBot.I18n.Bundles

/-! Which bundles the calls of `t` may still use after a change has been handled. -/

namespace I18n

open JsText StepMachine CacheService
open Calendar (Timestamp)

/-! The texts of the keys tell the scopes apart. -/

theorem split_colon {text rest : JsString} (free : colon ∉ text) :
    split colon (text ++ colon :: rest) = text :: split colon rest := by
  rw [split, List.splitOn_append_cons_self, List.splitOn_eq_singleton free]
  rfl

theorem split_last {text last : JsString} (free : colon ∉ last) :
    split colon (text ++ colon :: last) = split colon text ++ [last] := by
  rw [split, List.splitOn_append_cons_self, List.splitOn_eq_singleton free]
  rfl

theorem split_injective {first second : JsString} (same : split colon first = split colon second) :
    first = second := by
  have joined := congrArg ([colon].intercalate ·) same
  simpa [split, List.intercalate_splitOn] using joined

theorem locale_ns_injective {first second : Scope}
    (same : split colon (first.locale ++ colon :: first.ns) =
      split colon (second.locale ++ colon :: second.ns)) :
    first.locale = second.locale ∧ first.ns = second.ns := by
  rw [split_last first.nsFormed, split_last second.nsFormed] at same
  obtain ⟨locales, namespaces⟩ := List.append_inj' same rfl
  exact ⟨split_injective locales, List.cons.inj namespaces |>.1⟩

theorem scope_eq {first second : Scope} (guild : first.guildId = second.guildId)
    (rest : first.locale = second.locale ∧ first.ns = second.ns) : first = second := by
  cases first
  cases second
  obtain ⟨rfl, rfl⟩ := rest
  simp only at guild
  subst guild
  rfl

theorem split_memKey (scope : Scope) :
    split colon scope.memKey =
      scope.guildId.getD (js "global") :: split colon (scope.locale ++ colon :: scope.ns) := by
  rw [Scope.memKey, bundleMemKey]
  refine split_colon ?_
  cases isGuild : scope.guildId with
  | none => decide
  | some id => exact (scope.guildFormed id isGuild).2.1

theorem memKey_injective {first second : Scope} (same : first.memKey = second.memKey) :
    first = second := by
  have pieces := congrArg (split colon) same
  rw [split_memKey, split_memKey] at pieces
  obtain ⟨guilds, rest⟩ := List.cons.inj pieces
  refine scope_eq ?_ (locale_ns_injective rest)
  cases isFirst : first.guildId with
  | none =>
      cases isSecond : second.guildId with
      | none => rfl
      | some id =>
          rw [isFirst, isSecond] at guilds
          exact absurd guilds.symm (second.guildFormed id isSecond).2.2
  | some id =>
      cases isSecond : second.guildId with
      | none =>
          rw [isFirst, isSecond] at guilds
          exact absurd guilds (first.guildFormed id isFirst).2.2
      | some other =>
          rw [isFirst, isSecond] at guilds
          exact congrArg some guilds

theorem split_redisKey (scope : Scope) :
    split colon scope.redisKey =
      match scope.guildId with
      | some id => js "guild" :: id :: js "translations" ::
          split colon (scope.locale ++ colon :: scope.ns)
      | none => js "global" :: js "translations" ::
          split colon (scope.locale ++ colon :: scope.ns) := by
  have suffix : split colon (js "translations" ++ colon :: (scope.locale ++ colon :: scope.ns)) =
      js "translations" :: split colon (scope.locale ++ colon :: scope.ns) :=
    split_colon (by decide)
  rw [Scope.redisKey]
  unfold bundleRedisKey
  cases isGuild : scope.guildId with
  | none => simp only [split_colon (show colon ∉ js "global" by decide), suffix]
  | some id =>
      simp only [split_colon (show colon ∉ js "guild" by decide),
        split_colon (scope.guildFormed id isGuild).2.1, suffix]

theorem redisKey_injective {first second : Scope} (same : first.redisKey = second.redisKey) :
    first = second := by
  have pieces := congrArg (split colon) same
  rw [split_redisKey, split_redisKey] at pieces
  have differ : js "guild" ≠ js "global" := by decide
  cases isFirst : first.guildId with
  | none =>
      cases isSecond : second.guildId with
      | none =>
          rw [isFirst, isSecond] at pieces
          refine scope_eq (isFirst.trans isSecond.symm) (locale_ns_injective ?_)
          exact (List.cons.inj (List.cons.inj pieces).2).2
      | some id =>
          rw [isFirst, isSecond] at pieces
          exact absurd (List.cons.inj pieces).1.symm differ
  | some id =>
      cases isSecond : second.guildId with
      | none =>
          rw [isFirst, isSecond] at pieces
          exact absurd (List.cons.inj pieces).1 differ
      | some other =>
          rw [isFirst, isSecond] at pieces
          obtain ⟨guilds, rest⟩ := List.cons.inj (List.cons.inj pieces).2
          refine scope_eq ?_ (locale_ns_injective (List.cons.inj rest).2)
          rw [isFirst, isSecond, guilds]

/-! The parts of the bundles against the changes. -/

/-- The part is what the database has unless its source has changed since, and it was read after
every one of these changes. -/
structure PartFresh (rows : Rows) (log : List Source) (floor : List Nat) (source : Source)
    (part : Part) : Prop where
  current : (∀ number, part.since ≤ number → log[number]? ≠ some source) →
    part.rows = loadSource rows source
  read : ∀ number ∈ floor, log[number]? = some source → number < part.since
  bound : part.since ≤ log.length

variable {rows : Rows} {log : List Source} {floor : List Nat} {source : Source} {part : Part}

theorem PartFresh.mono {fewer : List Nat} (fresh : PartFresh rows log floor source part)
    (less : ∀ number ∈ fewer, number ∈ floor) : PartFresh rows log fewer source part :=
  ⟨fresh.current, fun number member => fresh.read number (less number member), fresh.bound⟩

theorem PartFresh.change {next : Rows} {changed : Source} {change : Change}
    (fresh : PartFresh rows log floor source part)
    (applied : change.apply rows = some (next, changed))
    (bound : ∀ number ∈ floor, number < log.length) :
    PartFresh next (log ++ [changed]) floor source part where
  current unchanged := by
    have before : ∀ number, part.since ≤ number → log[number]? ≠ some source := by
      intro number later isSource
      refine unchanged number later ?_
      rw [List.getElem?_append_left (List.getElem?_eq_some_iff.mp isSource).1, isSource]
    rw [fresh.current before]
    by_cases apart : source = changed
    · subst changed
      exact absurd (by simp) (unchanged log.length fresh.bound)
    · exact (loadSource_apply applied apart).symm
  read number member isSource := by
    rw [List.getElem?_append_left (bound number member)] at isSource
    exact fresh.read number member isSource
  bound := by
    rw [List.length_append]
    exact Nat.le_add_right_of_le fresh.bound

theorem partFresh_read {state : State} (bound : ∀ number ∈ floor, number < state.log.length)
    (source : Source) : PartFresh state.rows state.log floor source (readSource state source) :=
  ⟨fun _ => rfl, fun number member _ => bound number member, Nat.le_refl _⟩

theorem PartFresh.handled {changed : Source} {number : Nat}
    (fresh : PartFresh rows log floor source part) (isChange : log[number]? = some changed)
    (read : HasRead changed number source part) :
    PartFresh rows log (floor ++ [number]) source part where
  current := fresh.current
  read other member isSource := by
    rcases List.mem_append.mp member with before | isNew
    · exact fresh.read other before isSource
    · obtain rfl := List.mem_singleton.mp isNew
      exact read (Option.some.inj (isSource.symm.trans isChange))
  bound := fresh.bound

theorem Bundle.Parts.mono {first second : Source → Part → Prop} {bundle : Bundle}
    (parts : bundle.Parts first) (implies : ∀ source part, first source part → second source part) :
    bundle.Parts second :=
  ⟨implies _ _ parts.1, fun source isOwn part isPart =>
    implies _ _ (parts.2 source isOwn part isPart)⟩

theorem Phase.Parts.mono {first second : Source → Part → Prop} {scope : Scope} {phase : Phase}
    (parts : phase.Parts first scope)
    (implies : ∀ source part, first source part → second source part) :
    phase.Parts second scope := by
  cases phase with
  | answered hit =>
      cases hit with
      | none => trivial
      | some entry => exact Bundle.Parts.mono parts implies
  | storing entry => exact Bundle.Parts.mono parts implies
  | got bundle => exact Bundle.Parts.mono parts implies
  | loading global guild =>
      exact ⟨fun part isPart => implies _ _ (parts.1 part isPart),
        fun source isOwn part isPart => implies _ _ (parts.2 source isOwn part isPart)⟩
  | _ => trivial

theorem Bundle.Parts.and {first second : Source → Part → Prop} {bundle : Bundle}
    (left : bundle.Parts first) (right : bundle.Parts second) :
    bundle.Parts fun source part => first source part ∧ second source part :=
  ⟨⟨left.1, right.1⟩, fun source isOwn part isPart =>
    ⟨left.2 source isOwn part isPart, right.2 source isOwn part isPart⟩⟩

theorem Phase.Parts.and {first second : Source → Part → Prop} {scope : Scope} {phase : Phase}
    (left : phase.Parts first scope) (right : phase.Parts second scope) :
    phase.Parts (fun source part => first source part ∧ second source part) scope := by
  cases phase with
  | answered hit =>
      cases hit with
      | none => trivial
      | some entry => exact Bundle.Parts.and left right
  | storing entry => exact Bundle.Parts.and left right
  | got bundle => exact Bundle.Parts.and left right
  | loading global guild =>
      exact ⟨fun part isPart => ⟨left.1 part isPart, right.1 part isPart⟩,
        fun source isOwn part isPart =>
          ⟨left.2 source isOwn part isPart, right.2 source isOwn part isPart⟩⟩
  | _ => trivial

/-! The invariant of the runs in which every invalidation completes clean. -/

def Phase.bundle : Phase → Option Bundle
  | .found bundle | .got bundle => some bundle
  | .answered (some entry) | .storing entry => some entry.value
  | _ => none

structure CallSound (rows : Rows) (log : List Source) (handled : List Nat) (call : Call) :
    Prop where
  floor : ∀ number ∈ call.floor, number ∈ handled
  ofScope : ∀ bundle, call.phase.bundle = some bundle → bundle.scope = call.scope
  carried : call.phase.Parts (PartFresh rows log handled) call.scope
  found : ∀ bundle, call.phase = .found bundle → bundle.Parts (PartFresh rows log call.floor)
  consulted : ∀ used ∈ call.consulted,
    used.2.scope = used.1 ∧ used.2.Parts (PartFresh rows log call.floor)

structure Sound (state : State) : Prop where
  memory : state.memory.Every fun key bundle =>
    key = bundle.scope.memKey ∧ bundle.Parts (PartFresh state.rows state.log state.handled)
  cache : state.cache.Every fun key entry => key = entry.value.scope.redisKey ∧
    entry.value.Parts (PartFresh state.rows state.log state.handled)
  calls : ∀ call ∈ state.calls, CallSound state.rows state.log state.handled call
  handled : ∀ number ∈ state.handled, number < state.log.length
  named : ∀ invalidation ∈ state.invalidations,
    state.log[invalidation.number]? = some invalidation.source

theorem sound_start (rows : Rows) : Sound (State.start rows) := by
  constructor
  · exact Tiers.every_empty
  · exact Tiers.every_empty
  · simp [State.start]
  · simp [State.start]
  · simp [State.start]

theorem coherent_of_sound {state : State} (sound : Sound state) (files : Files) :
    Coherent files state where
  fresh call member used isUsed number isFloor source isSource := by
    have parts := ((sound.calls call member).consulted used isUsed).2
    refine parts.mono fun other part fresh same => ?_
    subst other
    exact fresh.read number isFloor isSource
  current call member used isUsed unaffected path := by
    obtain ⟨sameScope, parts⟩ := (sound.calls call member).consulted used isUsed
    have current {source : Source} {part : Part}
        (fresh : PartFresh state.rows state.log call.floor source part)
        (affects : used.1.affected source) : part.rows = loadSource state.rows source := by
      refine fresh.current fun number later isSource => ?_
      have earlier := fresh.read number (unaffected number source isSource affects) isSource
      omega
    have global := current parts.1 (.inl (by rw [sameScope]))
    rw [Bundle.message, precedence, global, sameScope]
    congr 2
    have shaped := used.2.shaped
    cases isPart : used.2.guild with
    | none =>
        rw [isPart, sameScope] at shaped
        cases isGuild : used.1.guildId with
        | none => simp [Scope.own, isGuild]
        | some id => simp [isGuild] at shaped
    | some part =>
        rw [isPart, sameScope] at shaped
        cases isGuild : used.1.guildId with
        | none => simp [isGuild] at shaped
        | some id =>
            have isOwn : used.1.own =
                some { guildId := some id, locale := used.1.locale, ns := used.1.ns } := by
              simp [Scope.own, isGuild]
            have fresh := parts.2 _ (by rw [sameScope]; exact isOwn) part isPart
            rw [isOwn, Option.bind_some, Option.bind_some, current fresh (.inr isOwn.symm)]

/-! What the steps of a call keep. -/

section Steps

variable {state next : State} {call : Call} {index : Nat} {phase : Phase} {bundle : Bundle}

/-- The steps that leave the database and the invalidations alone. -/
theorem sound_calls (sound : Sound state) {memory : Tiers JsString Bundle}
    {cache : Levels Bundle} {calls : List Call}
    (memorySound : memory.Every fun key bundle =>
      key = bundle.scope.memKey ∧ bundle.Parts (PartFresh state.rows state.log state.handled))
    (cacheSound : cache.Every fun key entry => key = entry.value.scope.redisKey ∧
      entry.value.Parts (PartFresh state.rows state.log state.handled))
    (callsSound : ∀ call ∈ calls, CallSound state.rows state.log state.handled call) :
    Sound { state with memory, cache, calls } :=
  ⟨memorySound, cacheSound, callsSound, sound.handled, sound.named⟩

theorem set_sound (sound : Sound state) {later : Call}
    (laterSound : CallSound state.rows state.log state.handled later) :
    ∀ call ∈ state.calls.set index later, CallSound state.rows state.log state.handled call := by
  intro call member
  rcases List.mem_or_eq_of_mem_set member with before | rfl
  · exact sound.calls call before
  · exact laterSound

theorem CallSound.to (callSound : CallSound rows log floor call)
    (ofScope : ∀ bundle, phase.bundle = some bundle → bundle.scope = call.scope)
    (carried : phase.Parts (PartFresh rows log floor) call.scope)
    (found : ∀ bundle, phase ≠ .found bundle) :
    CallSound rows log floor (call.to phase) :=
  ⟨callSound.floor, ofScope, carried, fun bundle isFound => absurd isFound (found bundle),
    callSound.consulted⟩

theorem CallSound.bare (callSound : CallSound rows log floor call) (none : phase.bundle = none)
    (carried : phase.Parts (PartFresh rows log floor) call.scope) :
    CallSound rows log floor (call.to phase) := by
  refine callSound.to ?_ carried ?_
  · simp [none]
  · rintro bundle rfl
    simp [Phase.bundle] at none

theorem settle_sound {calls : List Call} {scope : Scope}
    (callsSound : ∀ call ∈ calls, CallSound rows log floor call)
    (settled : ∀ call ∈ calls, call.scope = scope → CallSound rows log floor call →
      CallSound rows log floor (call.to phase)) :
    ∀ call ∈ settle index scope phase calls, CallSound rows log floor call := by
  intro call member
  obtain ⟨before, isBefore, rfl⟩ := List.mem_map.mp member
  have beforeSound := callsSound before isBefore
  split
  · split
    · rename_i same
      exact settled before isBefore same.2 beforeSound
    · exact beforeSound
  · exact beforeSound

structure Looked (state : State) (scope : Scope) (cache : Levels Bundle) (phase : Phase) :
    Prop where
  cache : cache.Every fun key entry => key = entry.value.scope.redisKey ∧
    entry.value.Parts (PartFresh state.rows state.log state.handled)
  ofScope : ∀ bundle, phase.bundle = some bundle → bundle.scope = scope
  carried : phase.Parts (PartFresh state.rows state.log state.handled) scope
  found : ∀ bundle, phase = .found bundle →
    bundle.Parts (PartFresh state.rows state.log state.handled)

theorem looked_lookup (sound : Sound state) (process : Nat) (scope : Scope) (now : Timestamp) :
    Looked state scope (lookup state process scope now).1 (lookup state process scope now).2 := by
  cases held : state.memory.get (.own process, scope.memKey) with
  | some bundle =>
      obtain ⟨sameKey, parts⟩ := sound.memory.get held
      simp only [lookup, held]
      refine ⟨sound.cache, ?_, trivial, ?_⟩
      · rintro other isBundle
        obtain rfl := Option.some.inj isBundle
        exact (memKey_injective sameKey).symm
      · rintro other isFound
        obtain rfl := Phase.found.inj isFound
        exact parts
  | none =>
      simp only [lookup, held]
      have cacheSound := every_memoryGet sound.cache process scope.redisKey now
      cases hit : (memoryGet state.cache process scope.redisKey now).1 with
      | none => exact ⟨cacheSound, by simp [Phase.bundle], trivial, by simp⟩
      | some entry =>
          obtain ⟨sameKey, parts⟩ := sound.cache.get (memoryGet_hit hit)
          refine ⟨cacheSound, ?_, parts, by simp⟩
          rintro other isBundle
          obtain rfl := Option.some.inj isBundle
          exact (redisKey_injective sameKey).symm

theorem sound_proceed (sound : Sound state)
    (callSound : CallSound state.rows state.log state.handled call)
    (sameScope : bundle.scope = call.scope)
    (parts : bundle.Parts (PartFresh state.rows state.log call.floor)) (files : Files)
    (now : Timestamp) : Sound (proceed files state index call bundle now) := by
  have consulted : ∀ used ∈ call.consulted ++ [(call.scope, bundle)],
      used.2.scope = used.1 ∧ used.2.Parts (PartFresh state.rows state.log call.floor) := by
    intro used member
    rcases List.mem_append.mp member with before | isNew
    · exact callSound.consulted used before
    · rw [List.mem_singleton.mp isNew]
      exact ⟨sameScope, parts⟩
  unfold proceed
  split
  · exact sound_calls sound sound.memory sound.cache (set_sound sound
      ⟨callSound.floor, by simp [Call.to, Phase.bundle], trivial, by simp [Call.to], consulted⟩)
  · exact sound_calls sound sound.memory sound.cache (set_sound sound
      ⟨callSound.floor, by simp [Call.to, Phase.bundle], trivial, by simp [Call.to], consulted⟩)
  · rename_i locale rest _ _
    have looked := looked_lookup sound call.process (call.scope.inLocale locale) now
    refine sound_calls sound sound.memory looked.cache (set_sound sound
      ⟨callSound.floor, looked.ofScope, looked.carried, ?_, consulted⟩)
    intro other isFound
    exact (looked.found other isFound).mono fun _ _ fresh => fresh.mono callSound.floor

theorem sound_advance (sound : Sound state) (found : state.calls[index]? = some call)
    {files : Files} {now : Timestamp} {fails : Bool}
    (advanced : advance files state index call now fails = some next) : Sound next := by
  have callSound := sound.calls call (List.mem_of_getElem? found)
  unfold advance at advanced
  dsimp only at advanced
  split at advanced
  · rename_i bundle isPhase
    obtain rfl := Option.some.inj advanced
    exact sound_proceed sound callSound (callSound.ofScope bundle (by rw [isPhase]; rfl))
      (callSound.found bundle isPhase) files now
  · obtain rfl := Option.some.inj advanced
    refine sound_calls sound sound.memory sound.cache
      (set_sound sound (callSound.to ?_ ?_ (by simp)))
    · intro bundle isBundle
      cases hit : redisGet state.cache call.scope.redisKey fails with
      | none => simp [hit, Phase.bundle] at isBundle
      | some entry =>
          rw [hit] at isBundle
          obtain rfl := Option.some.inj isBundle
          exact (redisKey_injective (sound.cache.get (redisGet_hit hit)).1).symm
    · cases hit : redisGet state.cache call.scope.redisKey fails with
      | none => trivial
      | some entry => exact (sound.cache.get (redisGet_hit hit)).2
  · rename_i entry isPhase
    obtain rfl := Option.some.inj advanced
    have sameScope := callSound.ofScope entry.value (by rw [isPhase]; rfl)
    have parts := callSound.carried
    rw [isPhase] at parts
    refine sound_calls sound sound.memory (sound.cache.set _ ⟨by rw [sameScope], parts⟩)
      (set_sound sound (callSound.to ?_ parts (by simp)))
    rintro other isBundle
    obtain rfl := Option.some.inj isBundle
    exact sameScope
  · obtain rfl := Option.some.inj advanced
    refine sound_calls sound sound.memory sound.cache (set_sound sound (callSound.bare ?_ ?_))
    · split <;> rfl
    · split
      · trivial
      · exact ⟨by simp, by simp⟩
  · rename_i entry isPhase
    obtain rfl := Option.some.inj advanced
    have sameScope := callSound.ofScope entry.value (by rw [isPhase]; rfl)
    have parts := callSound.carried
    rw [isPhase] at parts
    have goes : ∀ other : Call, other.scope = call.scope →
        CallSound state.rows state.log state.handled other →
        CallSound state.rows state.log state.handled (other.to (.got entry.value)) := by
      intro other isScope otherSound
      refine otherSound.to ?_ parts (by simp)
      rintro bundle isBundle
      obtain rfl := Option.some.inj isBundle
      exact sameScope.trans isScope.symm
    refine sound_calls sound sound.memory
      (every_redisSet sound.cache ⟨by rw [sameScope], parts⟩ fails)
      (settle_sound (set_sound sound (goes call rfl callSound)) fun other _ => goes other)
  · rename_i bundle isPhase
    obtain rfl := Option.some.inj advanced
    have sameScope := callSound.ofScope bundle (by rw [isPhase]; rfl)
    have parts := callSound.carried
    rw [isPhase] at parts
    have memoised : Sound { state with
        memory := state.memory.set (.own call.process, call.scope.memKey) bundle } :=
      sound_calls sound (sound.memory.set _ ⟨by rw [sameScope], parts⟩) sound.cache sound.calls
    exact sound_proceed memoised callSound sameScope
      (Bundle.Parts.mono parts fun _ _ fresh => fresh.mono callSound.floor) files now
  · cases advanced
  · cases advanced
  · cases advanced
  · cases advanced

theorem sound_load (sound : Sound state) (found : state.calls[index]? = some call)
    {cacheTtlSeconds : Nat} {action : Action}
    (loaded : load cacheTtlSeconds state index call action = some next) : Sound next := by
  have callSound := sound.calls call (List.mem_of_getElem? found)
  have read (source : Source) := partFresh_read sound.handled source
  unfold load at loaded
  split at loaded
  · split at loaded
    · rename_i guild isPhase
      obtain rfl := Option.some.inj loaded
      have parts := callSound.carried
      rw [isPhase] at parts
      refine sound_calls sound sound.memory sound.cache (set_sound sound (callSound.bare rfl ?_))
      refine ⟨?_, parts.2⟩
      rintro part ⟨⟩
      exact read call.scope.global
    · cases loaded
  · split at loaded
    · rename_i global source isPhase isOwn
      obtain rfl := Option.some.inj loaded
      have parts := callSound.carried
      rw [isPhase] at parts
      refine sound_calls sound sound.memory sound.cache (set_sound sound (callSound.bare rfl ?_))
      refine ⟨parts.1, ?_⟩
      rintro other isOther part ⟨⟩
      obtain rfl := Option.some.inj (isOwn.symm.trans isOther)
      exact read source
    · cases loaded
  · split at loaded
    · rename_i global guild isPhase
      obtain ⟨bundle, assembled, rfl⟩ := Option.map_eq_some_iff.mp loaded
      have parts := callSound.carried
      rw [isPhase] at parts
      unfold assemble at assembled
      split at assembled
      · obtain rfl := Option.some.inj assembled
        refine sound_calls sound sound.memory
          (sound.cache.set _ ⟨rfl, parts.1 global rfl, parts.2⟩)
          (set_sound sound (callSound.to ?_ ⟨parts.1 global rfl, parts.2⟩ (by simp)))
        rintro other isBundle
        obtain rfl := Option.some.inj isBundle
        rfl
      · cases assembled
    · cases loaded
  · split at loaded
    · obtain rfl := Option.some.inj loaded
      exact sound_calls sound sound.memory sound.cache
        (settle_sound (set_sound sound (callSound.bare rfl trivial))
          fun other _ _ otherSound => otherSound.bare rfl trivial)
    · cases loaded
  · cases loaded

theorem CallSound.change {after : Rows} {change : Change}
    (callSound : CallSound rows log floor call)
    (applied : change.apply rows = some (after, source))
    (bound : ∀ number ∈ floor, number < log.length) :
    CallSound after (log ++ [source]) floor call where
  floor := callSound.floor
  ofScope := callSound.ofScope
  carried := callSound.carried.mono fun _ _ fresh => fresh.change applied bound
  found bundle isFound := (callSound.found bundle isFound).mono fun _ _ fresh =>
    fresh.change applied fun number member => bound number (callSound.floor number member)
  consulted used member := by
    obtain ⟨sameScope, parts⟩ := callSound.consulted used member
    exact ⟨sameScope, parts.mono fun _ _ fresh =>
      fresh.change applied fun number isFloor => bound number (callSound.floor number isFloor)⟩

theorem sound_change (sound : Sound state) {after : Rows} {change : Change}
    (applied : change.apply state.rows = some (after, source)) :
    Sound { state with rows := after, log := state.log ++ [source] } where
  memory := sound.memory.mono fun _ _ meets =>
    ⟨meets.1, meets.2.mono fun _ _ fresh => fresh.change applied sound.handled⟩
  cache := sound.cache.mono fun _ _ meets =>
    ⟨meets.1, meets.2.mono fun _ _ fresh => fresh.change applied sound.handled⟩
  calls call member := (sound.calls call member).change applied sound.handled
  handled number member := by
    rw [List.length_append]
    exact Nat.lt_add_right _ (sound.handled number member)
  named invalidation member := by
    have before := sound.named invalidation member
    rw [List.getElem?_append_left (List.getElem?_eq_some_iff.mp before).1, before]

theorem sound_complete (sound : Sound state) {invalidation : Invalidation}
    (found : state.invalidations[index]? = some invalidation)
    (clean : Clean state invalidation.source invalidation.number) :
    Sound { state with
      handled := state.handled ++ [invalidation.number]
      invalidations := state.invalidations.eraseIdx index } := by
  have isChange := sound.named invalidation (List.mem_of_getElem? found)
  have both {source : Source} {part : Part}
      (fresh : PartFresh state.rows state.log state.handled source part ∧
        HasRead invalidation.source invalidation.number source part) :
      PartFresh state.rows state.log (state.handled ++ [invalidation.number]) source part :=
    fresh.1.handled isChange fresh.2
  refine ⟨?_, ?_, ?_, ?_, ?_⟩
  · refine (sound.memory.and clean.memory).mono ?_
    rintro key bundle ⟨⟨sameKey, parts⟩, read⟩
    exact ⟨sameKey, (parts.and read).mono fun _ _ fresh => both fresh⟩
  · refine (sound.cache.and clean.cache).mono ?_
    rintro key entry ⟨⟨sameKey, parts⟩, read⟩
    exact ⟨sameKey, (parts.and read).mono fun _ _ fresh => both fresh⟩
  · intro call member
    have callSound := sound.calls call member
    refine ⟨fun number isFloor => List.mem_append_left _ (callSound.floor number isFloor),
      callSound.ofScope, ?_, callSound.found, callSound.consulted⟩
    exact (callSound.carried.and (clean.calls call member)).mono fun _ _ fresh => both fresh
  · intro number member
    rcases List.mem_append.mp member with before | isNew
    · exact sound.handled number before
    · rw [List.mem_singleton.mp isNew]
      exact (List.getElem?_eq_some_iff.mp isChange).1
  · exact fun other member => sound.named other (List.mem_of_mem_eraseIdx member)

theorem sound_t (sound : Sound state) (process : Nat) (scope : Scope) (path : JsString)
    (chain : List JsString) (now : Timestamp) {files : Files} {cacheTtlSeconds : Nat}
    (taken : step files cacheTtlSeconds state (.t process scope path chain now) = some next) :
    Sound next := by
  obtain rfl := Option.some.inj taken
  have looked := looked_lookup sound process scope now
  refine sound_calls sound sound.memory looked.cache ?_
  intro call member
  rcases List.mem_append.mp member with before | isNew
  · exact sound.calls call before
  · rw [List.mem_singleton.mp isNew]
    exact ⟨fun _ isFloor => isFloor, looked.ofScope, looked.carried, looked.found, by simp⟩

theorem sound_step {files : Files} {cacheTtlSeconds : Nat} {action : Action} (sound : Sound state)
    (clean : CompletesClean state action)
    (taken : step files cacheTtlSeconds state action = some next) : Sound next := by
  cases action with
  | change change =>
      obtain ⟨after, applied, rfl⟩ := Option.map_eq_some_iff.mp taken
      exact sound_change sound applied
  | t process scope path chain now => exact sound_t sound process scope path chain now taken
  | advance index now fails =>
      simp only [step] at taken
      split at taken
      · rename_i call found
        exact sound_advance sound found taken
      · cases taken
  | readGlobal index | readGuild index | finish index now | failLoad index =>
      simp only [step] at taken
      split at taken
      · rename_i call found
        exact sound_load sound found taken
      · cases taken
  | handle process number =>
      obtain ⟨source, isChange, rfl⟩ := Option.map_eq_some_iff.mp taken
      refine ⟨sound.memory.delete _, sound.cache.delete _, sound.calls, sound.handled, ?_⟩
      intro invalidation member
      rcases List.mem_append.mp member with before | isNew
      · exact sound.named invalidation before
      · rw [List.mem_singleton.mp isNew]
        exact isChange
  | landDelete index fails =>
      simp only [step] at taken
      split at taken
      · rename_i invalidation found
        split at taken
        · cases taken
        · obtain rfl := Option.some.inj taken
          refine ⟨sound.memory, every_redisDelete sound.cache fails, sound.calls, sound.handled, ?_⟩
          intro other member
          rcases List.mem_or_eq_of_mem_set member with before | rfl
          · exact sound.named other before
          · exact sound.named invalidation (List.mem_of_getElem? found)
      · cases taken
  | complete index =>
      simp only [step] at taken
      split at taken
      · rename_i invalidation found
        split at taken
        · obtain rfl := Option.some.inj taken
          exact sound_complete sound found (clean invalidation found)
        · cases taken
      · cases taken
  | evict level key =>
      obtain rfl := Option.some.inj taken
      exact ⟨sound.memory, sound.cache.delete _, sound.calls, sound.handled, sound.named⟩

end Steps

/-- Where every invalidation completes clean, what `t` uses is coherent with the changes that have
been handled. -/
theorem coherent_of_clean (files : Files) (cacheTtlSeconds : Nat) (rows : Rows)
    (actions : List Action)
    (guarded : Guarded (step files cacheTtlSeconds) CompletesClean (State.start rows) actions) :
    Always (step files cacheTtlSeconds) (Coherent files) (State.start rows) actions := by
  have sound : Always (step files cacheTtlSeconds) Sound (State.start rows) actions :=
    always_of_guarded (step files cacheTtlSeconds)
      (fun state action next sound clean taken => sound_step sound clean taken) (sound_start rows)
      guarded
  exact sound.mono _ fun state sound => coherent_of_sound sound files

instance (number : Nat) (changed source : Source) (part : Part) :
    Decidable (HasRead changed number source part) :=
  decidable_of_iff (source ≠ changed ∨ number < part.since) (by
    rw [HasRead, Decidable.imp_iff_not_or])

instance (meets : Source → Part → Prop) [∀ source part, Decidable (meets source part)]
    (bundle : Bundle) : Decidable (bundle.Parts meets) :=
  inferInstanceAs (Decidable (_ ∧ ∀ source ∈ bundle.scope.own, ∀ part ∈ bundle.guild, _))

instance (meets : Source → Part → Prop) [∀ source part, Decidable (meets source part)]
    (scope : Scope) (phase : Phase) : Decidable (phase.Parts meets scope) := by
  unfold Phase.Parts
  split <;> infer_instance

instance (state : State) (source : Source) (number : Nat) :
    Decidable (Clean state source number) :=
  decidable_of_iff
    ((state.memory.Every fun _ bundle => bundle.Parts (HasRead source number)) ∧
      (state.cache.Every fun _ entry => entry.value.Parts (HasRead source number)) ∧
      ∀ call ∈ state.calls, call.phase.Parts (HasRead source number) call.scope)
    ⟨fun clean => ⟨clean.1, clean.2.1, clean.2.2⟩,
      fun clean => ⟨clean.memory, clean.cache, clean.calls⟩⟩

instance (state : State) (action : Action) : Decidable (CompletesClean state action) := by
  cases action <;> unfold CompletesClean <;> infer_instance

/-! A guild has its greeting changed. -/

def noFiles : Files := fun _ _ => Record.empty

def guildScope : Scope :=
  { guildId := some (js "1"), locale := js "pt", ns := js "greetings", guildFormed := by decide
    nsFormed := by decide }

def greeting (value : JsString) : UpsertTranslation :=
  { guildId := some (js "1"), locale := js "pt", module := js "welcome", ns := js "greetings"
    key := js "hello", value, updatedBy := none }

/-- The change, and its event as it is handled. -/
def changed : List Action :=
  [.change (.upsert (greeting (js "oi")) (js "t1")), .handle 0 0, .landDelete 0 false, .complete 0]

def asked : Action := .t 0 guildScope (js "hello") [] 0

/-- A `t` that finds nothing cached, up to the load. -/
def loaded (call : Nat) : List Action :=
  [asked, .advance call 0 false, .advance call 0 false, .readGlobal call, .readGuild call,
    .finish call 0, .advance call 0 false, .advance call 0 false]

theorem coherent_first_load :
    Always (step noFiles 3600) (Coherent noFiles) (State.start .empty) (changed ++ loaded 0) :=
  coherent_of_clean noFiles 3600 .empty _ (by decide +kernel)

def usesFresh (state : State) : Bool :=
  state.calls.all fun call => call.consulted.all fun used => call.floor.all fun number =>
    (state.log[number]?).all fun source => decide (used.2.Parts (HasRead source number))

theorem usesFresh_of_coherent (state : State) (coherent : Coherent noFiles state) :
    usesFresh state = true := by
  simp only [usesFresh, List.all_eq_true, Option.all_eq_true, decide_eq_true_eq]
  intro call member used isUsed number isFloor source isSource
  exact coherent.fresh call member used isUsed number isFloor source isSource

/-- The bundle of the guild outlives the invalidation, which only reaches that of all guilds. -/
theorem guild_bundle_outlives_change :
    ¬ ∀ (files : Files) (cacheTtlSeconds : Nat) (rows : Rows) (actions : List Action),
      Always (step files cacheTtlSeconds) (Coherent files) (State.start rows) actions := by
  intro all
  refine not_always (step noFiles 3600) usesFresh usesFresh_of_coherent ?_
    (all noFiles 3600 .empty (loaded 0 ++ changed ++ [asked, .advance 1 0 false]))
  decide +kernel

end I18n
