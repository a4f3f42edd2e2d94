import ArmstrongBot.Library.FormEncoding
import ArmstrongBot.Library.KeyedCache
import Mathlib.Data.List.Infix

/-! `CacheInterceptor` and the keys under which `CacheKeyBuilder` lets it file the responses. -/

namespace ResponseCache

open JsText

def colon : CodeUnit := unit 58

def slash : CodeUnit := unit 47

def question : CodeUnit := unit 63

/-- A text of the query; what Express decodes has no unpaired surrogates. -/
structure Text where
  units : JsString
  paired : Utf8.Paired units

/-- A value of `req.query`, nested as deep as the query parser reads it. -/
inductive QueryValue
  | text (value : Text)
  | list (items : List QueryValue)
  | object (fields : List (Text × QueryValue))

/-- `req.query`, its own fields in their order. -/
abbrev Query := List (Text × QueryValue)

/-- A route path begins with a slash, and a colon in it is followed by the name of a parameter. -/
structure Route where
  path : JsString
  rooted : path.head? = some slash
  named : ¬ [colon, slash] <:+: path
  deriving DecidableEq

inductive ScopeOption
  | guild
  | global
  | actor
  deriving DecidableEq

structure CacheResponseOptions where
  ttlSeconds : Nat
  scope : Option ScopeOption

/-- `options` is what `@CacheResponse` gave the handler; `guild` and `actor` are the ids of
`getApiContext`. -/
structure Request where
  method : JsString
  options : Option CacheResponseOptions
  route : Route
  params : List (JsString × JsString)
  query : Query
  guild : Option JsString
  actor : Option JsString

/-! `String(value)`, which joins the items of an array and throws for an object that has a field
`toString` of its own. -/

mutual

def stringOf : QueryValue → Option JsString
  | .text value => some value.units
  | .list items => (stringsOf items).map [unit 44].intercalate
  | .object fields =>
      if fields.any fun field => field.1.units = js "toString" then none
      else some (js "[object Object]")

def stringsOf : List QueryValue → Option (List JsString)
  | [] => some []
  | item :: rest => (stringOf item).bind fun text => (stringsOf rest).map (text :: ·)

end

/-- The pairs of `new URLSearchParams(req.query)`. -/
def flatten : Query → Option (List (JsString × JsString))
  | [] => some []
  | (name, value) :: rest =>
      (stringOf value).bind fun text => (flatten rest).map ((name.units, text) :: ·)

namespace CacheKeyBuilder

def suffixOf (parts : List JsString) : JsString :=
  if parts.length > 0 then colon :: [colon].intercalate parts else []

/-- `assertNonEmpty` throws. -/
def forGuild (guildId cacheNamespace : JsString) (parts : List JsString) : Option JsString :=
  if trim guildId = [] ∨ trim cacheNamespace = [] then none
  else some (js "guild:" ++ guildId ++ colon :: cacheNamespace ++ suffixOf parts)

def forGlobal (cacheNamespace : JsString) (parts : List JsString) : Option JsString :=
  if trim cacheNamespace = [] then none else some (js "global:" ++ cacheNamespace ++ suffixOf parts)

end CacheKeyBuilder

def generic : JsString := js "generic"

def buildKey (request : Request) (options : CacheResponseOptions) : Option JsString :=
  (flatten request.query).bind fun pairs =>
    let suffix := request.route.path ++ question :: FormEncoding.serialize pairs
    match options.scope, request.guild, request.actor with
    | some .guild, some guildId, _ => CacheKeyBuilder.forGuild guildId generic [js "api", suffix]
    | some .actor, _, some actorId =>
        CacheKeyBuilder.forGlobal generic [js "api", js "actor", actorId, suffix]
    | _, _, _ => CacheKeyBuilder.forGlobal generic [js "api", suffix]

/-- The key of `intercept`; a request without one goes to its handler, or fails. -/
def keyOf (request : Request) : Option JsString :=
  request.options.bind fun options =>
    if request.method = js "GET" then buildKey request options else none

/-- For whom a response is cached. -/
inductive Scope
  | guild (id : JsString)
  | actor (id : JsString)
  | global
  deriving DecidableEq

def Scope.isBlank : Scope → Bool
  | .guild id => trim id = []
  | .actor _ | .global => false

def scopeOf (request : Request) : Scope :=
  match request.options.bind CacheResponseOptions.scope, request.guild, request.actor with
  | some .guild, some guildId, _ => .guild guildId
  | some .actor, _, some actorId => .actor actorId
  | _, _, _ => .global

/-- One request's response is for the other too. -/
structure Same (first second : Request) : Prop where
  scope : scopeOf first = scopeOf second
  route : first.route = second.route
  params : first.params = second.params
  query : first.query = second.query

/-- A response is cached for the request: a flagged `GET`, whose guild has an id, and whose query
has a text. -/
structure Cacheable (request : Request) : Prop where
  flagged : request.options.isSome = true
  isGet : request.method = js "GET"
  isGuild : (scopeOf request).isBlank = false
  written : (flatten request.query).isSome = true

/-- Two requests that only their path parameters or the structure of their queries could tell apart
have the same. -/
def Apart (first second : Request) : Prop :=
  Cacheable first → Cacheable second → scopeOf first = scopeOf second → first.route = second.route →
    flatten first.query = flatten second.query →
    first.params = second.params ∧ first.query = second.query

/-! The texts of a query are paired, however they were nested. -/

theorem paired_of_all {text : JsString} (ascii : text.all fun code => decide (code.val < 0x80)) :
    Utf8.Paired text :=
  Utf8.paired_of_ascii fun code member => of_decide_eq_true (List.all_eq_true.mp ascii code member)

theorem paired_intercalate {texts : List JsString} (paired : ∀ text ∈ texts, Utf8.Paired text) :
    Utf8.Paired ([unit 44].intercalate texts) := by
  have comma : Utf8.Paired [unit 44] := paired_of_all (by decide)
  induction texts with
  | nil => exact .nil
  | cons text rest ih =>
      have later := ih fun other member => paired other (List.mem_cons_of_mem _ member)
      have first := paired text List.mem_cons_self
      cases rest with
      | nil =>
          rw [List.intercalate_singleton]
          exact first
      | cons other others =>
          rw [List.intercalate_cons_cons]
          exact (first.append comma).append later

mutual

theorem paired_stringOf : ∀ {value : QueryValue} {text : JsString}, stringOf value = some text →
    Utf8.Paired text
  | .text value, text, written => by
      obtain rfl := Option.some.inj written
      exact value.paired
  | .list items, text, written => by
      rw [stringOf, Option.map_eq_some_iff] at written
      obtain ⟨texts, areTexts, rfl⟩ := written
      exact paired_intercalate (paired_stringsOf areTexts)
  | .object fields, text, written => by
      rw [stringOf] at written
      split at written
      · cases written
      · obtain rfl := Option.some.inj written
        exact paired_of_all (by decide)

theorem paired_stringsOf : ∀ {items : List QueryValue} {texts : List JsString},
    stringsOf items = some texts → ∀ text ∈ texts, Utf8.Paired text
  | [], texts, written => by
      obtain rfl := Option.some.inj written
      simp
  | item :: rest, texts, written => by
      rw [stringsOf, Option.bind_eq_some_iff] at written
      obtain ⟨first, isFirst, isRest⟩ := written
      obtain ⟨later, areLater, rfl⟩ := Option.map_eq_some_iff.mp isRest
      exact List.forall_mem_cons.mpr ⟨paired_stringOf isFirst, paired_stringsOf areLater⟩

end

theorem paired_flatten {query : Query} {pairs : List (JsString × JsString)}
    (written : flatten query = some pairs) :
    ∀ pair ∈ pairs, Utf8.Paired pair.1 ∧ Utf8.Paired pair.2 := by
  induction query generalizing pairs with
  | nil =>
      obtain rfl := Option.some.inj written
      simp
  | cons field rest ih =>
      obtain ⟨text, isText, isRest⟩ := Option.bind_eq_some_iff.mp written
      obtain ⟨later, areLater, rfl⟩ := Option.map_eq_some_iff.mp isRest
      exact List.forall_mem_cons.mpr ⟨⟨field.1.paired, paired_stringOf isText⟩, ih areLater⟩

/-! A key falls into the scope, the route and the query it was made of. -/

def front : Scope → JsString
  | .guild id => js "guild:" ++ id ++ js ":generic:api"
  | .actor id => js "global:generic:api:actor:" ++ id
  | .global => js "global:generic:api"

theorem suffixOf_cons (part : JsString) {parts : List JsString} (some : parts ≠ []) :
    CacheKeyBuilder.suffixOf (part :: parts) = colon :: part ++ CacheKeyBuilder.suffixOf parts := by
  cases parts with
  | nil => exact absurd rfl some
  | cons other others =>
      simp [CacheKeyBuilder.suffixOf, List.intercalate_cons_cons]

theorem suffixOf_singleton (part : JsString) : CacheKeyBuilder.suffixOf [part] = colon :: part := by
  simp [CacheKeyBuilder.suffixOf, List.intercalate_singleton]

theorem forGlobal_generic (parts : List JsString) :
    CacheKeyBuilder.forGlobal generic parts =
      some (js "global:" ++ generic ++ CacheKeyBuilder.suffixOf parts) :=
  if_neg (by decide)

theorem forGuild_generic (guildId : JsString) (parts : List JsString) :
    CacheKeyBuilder.forGuild guildId generic parts =
      if trim guildId = [] then none
      else some (js "guild:" ++ guildId ++ colon :: generic ++ CacheKeyBuilder.suffixOf parts) := by
  have blank : trim generic ≠ [] := by decide
  simp [CacheKeyBuilder.forGuild, blank]

theorem buildKey_eq {request : Request} {options : CacheResponseOptions}
    (flagged : request.options = some options) {pairs : List (JsString × JsString)}
    (arePairs : flatten request.query = some pairs) :
    buildKey request options =
      if (scopeOf request).isBlank then none
      else some (front (scopeOf request) ++
        colon :: (request.route.path ++ question :: FormEncoding.serialize pairs)) := by
  have guildText : js ":generic:api" = colon :: generic ++ colon :: js "api" := by decide
  have globalText : js "global:generic:api" = js "global:" ++ generic ++ colon :: js "api" := by decide
  have actorText : js "global:generic:api:actor:" =
      js "global:" ++ generic ++ colon :: js "api" ++ colon :: js "actor" ++ [colon] := by decide
  unfold buildKey scopeOf
  rw [arePairs, Option.bind_some, flagged, Option.bind_some]
  generalize request.route.path ++ question :: FormEncoding.serialize pairs = suffix
  generalize request.guild = guild
  generalize request.actor = actor
  split
  · rename_i guildId _ _ _
    simp [forGuild_generic, suffixOf_cons, suffixOf_singleton, front, guildText, Scope.isBlank]
  · simp [forGlobal_generic, suffixOf_cons, suffixOf_singleton, front, actorText, Scope.isBlank]
  · simp [forGlobal_generic, suffixOf_cons, suffixOf_singleton, front, globalText,
      Scope.isBlank]

theorem keyOf_eq_some_iff {request : Request} {key : JsString} :
    keyOf request = some key ↔
      Cacheable request ∧ ∃ pairs, flatten request.query = some pairs ∧
        key = front (scopeOf request) ++
          colon :: (request.route.path ++ question :: FormEncoding.serialize pairs) := by
  constructor
  · intro isKey
    obtain ⟨options, flagged, isKey⟩ := Option.bind_eq_some_iff.mp isKey
    obtain ⟨isGet, isKey⟩ := Option.ite_none_right_eq_some.mp isKey
    obtain ⟨pairs, arePairs, _⟩ := Option.bind_eq_some_iff.mp isKey
    rw [buildKey_eq flagged arePairs] at isKey
    obtain ⟨isGuild, isText⟩ := Option.ite_none_left_eq_some.mp isKey
    refine ⟨⟨?_, isGet, Bool.eq_false_iff.mpr isGuild, ?_⟩, pairs, arePairs,
      (Option.some.inj isText).symm⟩
    · rw [flagged]
      rfl
    · rw [arePairs]
      rfl
  · rintro ⟨cacheable, pairs, arePairs, rfl⟩
    obtain ⟨options, flagged⟩ := Option.isSome_iff_exists.mp cacheable.flagged
    rw [keyOf, flagged, Option.bind_some, if_pos cacheable.isGet, buildKey_eq flagged arePairs]
    exact if_neg (Bool.eq_false_iff.mp cacheable.isGuild)

/-- What follows the last mark is known, and so is what comes before it. -/
theorem last_mark_inj {mark : CodeUnit} {first second rest other : JsString} (free : mark ∉ rest)
    (otherFree : mark ∉ other) (same : first ++ mark :: rest = second ++ mark :: other) :
    first = second ∧ rest = other := by
  rcases List.append_eq_append_iff.mp same with ⟨extra, longer, isExtra⟩ | ⟨extra, longer, isExtra⟩
  · cases extra with
    | nil =>
        rw [List.append_nil] at longer
        exact ⟨longer.symm, (List.cons.inj isExtra).2⟩
    | cons code extra =>
        rw [List.cons_append] at isExtra
        exact absurd (by rw [(List.cons.inj isExtra).2]; simp) free
  · cases extra with
    | nil =>
        rw [List.append_nil] at longer
        exact ⟨longer, (List.cons.inj isExtra).2.symm⟩
    | cons code extra =>
        rw [List.cons_append] at isExtra
        exact absurd (by rw [(List.cons.inj isExtra).2]; simp) otherFree

/-- No route begins within another one. -/
theorem route_not_within {first second : Route} {extra : JsString}
    (same : colon :: first.path = extra ++ colon :: second.path) : extra = [] ∧ first = second := by
  cases extra with
  | nil =>
      have paths := (List.cons.inj same).2
      cases first
      cases second
      subst paths
      exact ⟨rfl, rfl⟩
  | cons code extra =>
      have isPath := (List.cons.inj same).2
      have rooted := second.rooted
      cases begins : second.path with
      | nil =>
          rw [begins] at rooted
          cases rooted
      | cons head rest =>
          rw [begins] at rooted
          obtain rfl := Option.some.inj rooted
          rw [begins] at isPath
          exact absurd ⟨extra, rest, by rw [isPath]; simp⟩ first.named

theorem front_route_inj {first second : Route} {start other : JsString}
    (same : start ++ colon :: first.path = other ++ colon :: second.path) :
    start = other ∧ first = second := by
  rcases List.append_eq_append_iff.mp same with ⟨extra, longer, isExtra⟩ | ⟨extra, longer, isExtra⟩
  · obtain ⟨rfl, sameRoute⟩ := route_not_within isExtra
    rw [List.append_nil] at longer
    exact ⟨longer.symm, sameRoute⟩
  · obtain ⟨rfl, sameRoute⟩ := route_not_within isExtra
    rw [List.append_nil] at longer
    exact ⟨longer, sameRoute.symm⟩

theorem second_letter (scope : Scope) :
    (front scope)[1]? = some (match scope with | .guild _ => unit 117 | _ => unit 108) := by
  cases scope with
  | guild id => rfl
  | actor id => rfl
  | global => rfl

theorem front_actor_ne_global (id : JsString) : front (.actor id) ≠ front .global := by
  intro same
  have lengths := congrArg List.length same
  have longer : (js "global:generic:api").length < (js "global:generic:api:actor:").length := by decide
  simp only [front, List.length_append] at lengths
  omega

theorem front_injective {first second : Scope} (same : front first = front second) :
    first = second := by
  have letters := congrArg (fun text => text[1]?) same
  rw [second_letter, second_letter] at letters
  have apart : (some (unit 117) : Option CodeUnit) ≠ some (unit 108) := by decide
  cases first with
  | guild id =>
      cases second with
      | guild other =>
          have ids := List.append_cancel_left (List.append_cancel_right same)
          rw [ids]
      | actor other => exact absurd letters apart
      | global => exact absurd letters apart
  | actor id =>
      cases second with
      | guild other => exact absurd letters.symm apart
      | actor other =>
          have ids := List.append_cancel_left same
          rw [ids]
      | global => exact absurd same (front_actor_ne_global id)
  | global =>
      cases second with
      | guild other => exact absurd letters.symm apart
      | actor other => exact absurd same.symm (front_actor_ne_global other)
      | global => rfl

/-- Two requests have one key if and only if they are cached for the same scope, under the same route
and with the same query text. -/
theorem same_key_iff {first second : Request} :
    (∃ key, keyOf first = some key ∧ keyOf second = some key) ↔
      Cacheable first ∧ Cacheable second ∧ scopeOf first = scopeOf second ∧
        first.route = second.route ∧ flatten first.query = flatten second.query := by
  constructor
  · rintro ⟨key, isFirst, isSecond⟩
    obtain ⟨cacheable, pairs, arePairs, rfl⟩ := keyOf_eq_some_iff.mp isFirst
    obtain ⟨otherCacheable, others, areOthers, same⟩ := keyOf_eq_some_iff.mp isSecond
    rw [← List.cons_append, ← List.cons_append, ← List.append_assoc, ← List.append_assoc] at same
    obtain ⟨fronts, queries⟩ := last_mark_inj (FormEncoding.not_mem_serialize pairs)
      (FormEncoding.not_mem_serialize others) same
    obtain ⟨sameFront, sameRoute⟩ := front_route_inj fronts
    have samePairs := FormEncoding.serialize_injective (paired_flatten arePairs)
      (paired_flatten areOthers) queries
    refine ⟨cacheable, otherCacheable, front_injective sameFront, sameRoute, ?_⟩
    rw [arePairs, areOthers, samePairs]
  · rintro ⟨cacheable, otherCacheable, sameScope, sameRoute, samePairs⟩
    obtain ⟨pairs, arePairs⟩ := Option.isSome_iff_exists.mp cacheable.written
    refine ⟨_, keyOf_eq_some_iff.mpr ⟨cacheable, pairs, arePairs, rfl⟩, ?_⟩
    refine keyOf_eq_some_iff.mpr ⟨otherCacheable, pairs, samePairs ▸ arePairs, ?_⟩
    rw [sameScope, sameRoute]

/-- One key is for requests that differ in nothing, and no run of the cache answers a request with
the response of a request that is not the same. -/
structure Separated (requests : Request → Prop) : Prop where
  keys : ∀ first second, requests first → requests second →
    (∃ key, keyOf first = some key ∧ keyOf second = some key) → Same first second
  answers : ∀ events final, KeyedCache.AsksOnly requests events →
    StepMachine.run (KeyedCache.step keyOf) KeyedCache.start events = some final →
    ∀ answer ∈ final.answers, Same answer.1 answer.2

theorem same_of_apart {first second : Request} (apart : Apart first second)
    (sameKey : ∃ key, keyOf first = some key ∧ keyOf second = some key) : Same first second := by
  obtain ⟨cacheable, otherCacheable, sameScope, sameRoute, samePairs⟩ := same_key_iff.mp sameKey
  obtain ⟨sameParams, sameQuery⟩ := apart cacheable otherCacheable sameScope sameRoute samePairs
  exact ⟨sameScope, sameRoute, sameParams, sameQuery⟩

theorem responses_separate_iff (requests : Request → Prop) :
    Separated requests ↔
      ∀ first second, requests first → requests second → Apart first second := by
  constructor
  · intro separated first second isFirst isSecond cacheable otherCacheable sameScope sameRoute samePairs
    have sameKey := same_key_iff.mpr ⟨cacheable, otherCacheable, sameScope, sameRoute, samePairs⟩
    have same := separated.keys first second isFirst isSecond sameKey
    exact ⟨same.params, same.query⟩
  · intro apart
    have keys : ∀ first second, requests first → requests second →
        (∃ key, keyOf first = some key ∧ keyOf second = some key) → Same first second :=
      fun first second isFirst isSecond => same_of_apart (apart first second isFirst isSecond)
    refine ⟨keys, (KeyedCache.answers_right_iff_keys_apart requests Same).mpr ?_⟩
    intro asker origin key asks isOrigin askerKey originKey
    exact keys asker origin asks isOrigin ⟨key, askerKey, originKey⟩

def guildKeys : Route :=
  { path := js "/api/v1/guilds/:guildId/api-keys", rooted := by decide, named := by decide +kernel }

def guildKey : Route :=
  { path := js "/api/v1/guilds/:guildId/api-keys/:id", rooted := by decide, named := by decide +kernel }

def Text.ofAscii (units : JsString) (ascii : units.all fun code => decide (code.val < 0x80)) : Text :=
  { units, paired := paired_of_all ascii }

def guildRequest (route : Route) (params : List (JsString × JsString)) (query : Query) : Request :=
  { method := js "GET", options := some { ttlSeconds := 15, scope := some .guild }, route, params, query
    guild := some (js "1"), actor := some (js "7") }

def keyRequest (id : JsString) : Request :=
  guildRequest guildKey [(js "guildId", js "1"), (js "id", id)] []

def sortedBy (value : QueryValue) : Request :=
  guildRequest guildKeys [(js "guildId", js "1")] [(Text.ofAscii (js "sort") (by decide), value)]

def repeatedSort : QueryValue :=
  .list [.text (Text.ofAscii (js "name") (by decide)), .text (Text.ofAscii (js "id") (by decide))]

def joinedSort : QueryValue := .text (Text.ofAscii (js "name,id") (by decide))

/-- Two path parameters have one key, and so have `?sort=name&sort=id` and `?sort=name,id`. -/
theorem responses_confused :
    ¬ Separated (fun request => request = keyRequest (js "5") ∨ request = keyRequest (js "6")) ∧
      ¬ Separated (fun request =>
        request = sortedBy repeatedSort ∨ request = sortedBy joinedSort) := by
  constructor
  · intro separated
    have sameKey : ∃ key, keyOf (keyRequest (js "5")) = some key ∧
        keyOf (keyRequest (js "6")) = some key := ⟨_, rfl, rfl⟩
    have same := separated.keys _ _ (.inl rfl) (.inr rfl) sameKey
    exact absurd same.params (by decide)
  · intro separated
    have sameKey : ∃ key, keyOf (sortedBy repeatedSort) = some key ∧
        keyOf (sortedBy joinedSort) = some key := ⟨_, rfl, rfl⟩
    have same := separated.keys _ _ (.inl rfl) (.inr rfl) sameKey
    have values := congrArg Prod.snd (List.cons.inj same.query).1
    cases values

/-! Without path parameters, repeated parameters and nested ones the keys separate. -/

def ofTexts (pairs : List (Text × Text)) : Query := pairs.map fun pair => (pair.1, .text pair.2)

theorem flatten_ofTexts (pairs : List (Text × Text)) :
    flatten (ofTexts pairs) = some (pairs.map fun pair => (pair.1.units, pair.2.units)) := by
  induction pairs with
  | nil => rfl
  | cons pair rest ih =>
      rw [ofTexts] at ih
      simp [ofTexts, flatten, stringOf, ih]

theorem eq_ofTexts {query : Query} (plain : ∀ field ∈ query, ∃ text, field.2 = .text text) :
    ∃ pairs, query = ofTexts pairs := by
  induction query with
  | nil => exact ⟨[], rfl⟩
  | cons field rest ih =>
      obtain ⟨text, isText⟩ := plain field List.mem_cons_self
      obtain ⟨pairs, arePairs⟩ := ih fun other member => plain other (List.mem_cons_of_mem _ member)
      exact ⟨(field.1, text) :: pairs, by rw [arePairs, ofTexts, ofTexts, List.map_cons, ← isText]⟩

theorem Text.units_injective : Function.Injective Text.units := by
  intro first second same
  cases first
  cases second
  subst same
  rfl

theorem flatten_injective {first second : Query}
    (plain : ∀ field ∈ first, ∃ text, field.2 = .text text)
    (otherPlain : ∀ field ∈ second, ∃ text, field.2 = .text text)
    (same : flatten first = flatten second) : first = second := by
  obtain ⟨pairs, rfl⟩ := eq_ofTexts plain
  obtain ⟨others, rfl⟩ := eq_ofTexts otherPlain
  rw [flatten_ofTexts, flatten_ofTexts] at same
  have samePairs := List.map_injective_iff.mpr
    (Text.units_injective.prodMap Text.units_injective) (Option.some.inj same)
  rw [samePairs]

theorem apart_of_plain {first second : Request} (noParams : first.params = [])
    (otherParams : second.params = [])
    (plain : ∀ field ∈ first.query, ∃ text, field.2 = .text text)
    (otherPlain : ∀ field ∈ second.query, ∃ text, field.2 = .text text) : Apart first second := by
  intro _ _ _ _ samePairs
  exact ⟨noParams.trans otherParams.symm, flatten_injective plain otherPlain samePairs⟩

end ResponseCache
