import ArmstrongBot.I18n.Translations

/-! `t`: the key, the chain of locales, and the bundle that is asked for the path. -/

namespace I18n

open JsText

structure ParsedKey where
  module : JsString
  ns : JsString
  path : JsString
  deriving DecidableEq

/-- `[a-z0-9_-]` under the flag `i`. -/
def isKeyUnit (code : CodeUnit) : Bool :=
  isLower code || isUpper code || isDigit code || code = unit 95 || code = unit 45

/-- What `.` does not match. -/
def isLineEnd (code : CodeUnit) : Bool :=
  code = unit 10 || code = unit 13 || code = unit 0x2028 || code = unit 0x2029

/-- `/^([a-z0-9_-]+):([a-z0-9_-]+)\.(.+)$/i`; neither separator is in the class before it. -/
def parseKey (key : JsString) : Option ParsedKey :=
  let module := key.takeWhile isKeyUnit
  match key.dropWhile isKeyUnit with
  | [] => none
  | first :: rest =>
      let ns := rest.takeWhile isKeyUnit
      match rest.dropWhile isKeyUnit with
      | [] => none
      | second :: path =>
          if first = unit 58 ∧ second = unit 46 ∧ module ≠ [] ∧ ns ≠ [] ∧ path ≠ [] ∧
              path.all (fun code => !isLineEnd code) then
            some { module, ns, path }
          else none

theorem takeWhile_before (rest : JsString) {front : JsString} {separator : CodeUnit}
    (formed : front.all isKeyUnit = true) (apart : isKeyUnit separator = false) :
    (front ++ separator :: rest).takeWhile isKeyUnit = front ∧
      (front ++ separator :: rest).dropWhile isKeyUnit = separator :: rest := by
  rw [List.all_eq_true] at formed
  rw [List.takeWhile_append_of_pos formed, List.dropWhile_append_of_pos formed]
  simp [apart]

theorem parseKey_eq_some_iff {key : JsString} {parsed : ParsedKey} :
    parseKey key = some parsed ↔
      key = parsed.module ++ unit 58 :: (parsed.ns ++ unit 46 :: parsed.path) ∧
        (parsed.module ≠ [] ∧ parsed.module.all isKeyUnit = true) ∧
        (parsed.ns ≠ [] ∧ parsed.ns.all isKeyUnit = true) ∧
        parsed.path ≠ [] ∧ parsed.path.all (fun code => !isLineEnd code) = true := by
  constructor
  · intro isParsed
    simp only [parseKey] at isParsed
    split at isParsed
    · cases isParsed
    · rename_i first rest afterModule
      split at isParsed
      · cases isParsed
      · rename_i second path afterNs
        split at isParsed
        · rename_i formed
          obtain rfl := Option.some.inj isParsed
          obtain ⟨rfl, rfl, module, ns, some, lines⟩ := formed
          refine ⟨?_, ⟨module, List.all_takeWhile⟩, ⟨ns, List.all_takeWhile⟩, some, lines⟩
          rw [← afterNs, List.takeWhile_append_dropWhile, ← afterModule,
            List.takeWhile_append_dropWhile]
        · cases isParsed
  · rintro ⟨rfl, ⟨module, moduleUnits⟩, ⟨ns, nsUnits⟩, some, lines⟩
    have first := takeWhile_before (parsed.ns ++ unit 46 :: parsed.path) moduleUnits
      (show isKeyUnit (unit 58) = false by decide)
    have second := takeWhile_before parsed.path nsUnits
      (show isKeyUnit (unit 46) = false by decide)
    simp only [parseKey, first.1, first.2, second.1, second.2]
    exact if_pos ⟨trivial, trivial, module, ns, some, lines⟩

structure TranslationKey where
  text : JsString
  parsed : ParsedKey
  formed : parseKey text = some parsed

structure TranslationContext where
  guildId : Option JsString
  localeOverride : Option JsString

inductive LocaleSource
  | override
  | user
  | guild
  | default
  deriving DecidableEq

structure ResolvedLocale where
  primary : JsString
  chain : List JsString
  source : LocaleSource

def push (chain : List JsString) (locale : JsString) : List JsString :=
  if locale = [] ∨ locale ∈ chain then chain else chain ++ [locale]

/-- A locale that is there and not empty. -/
def given (locale : Option JsString) : Option JsString := locale.filter fun text => text ≠ []

def resolve (context : TranslationContext) (guildLocale userLocale : Option JsString)
    (defaultLocale fallbackLocale : JsString) : ResolvedLocale :=
  let (start, source) :=
    match given context.localeOverride, given userLocale, given guildLocale with
    | some locale, _, _ => (push [] locale, LocaleSource.override)
    | none, some locale, _ => (push [] locale, LocaleSource.user)
    | none, none, some locale => (push [] locale, LocaleSource.guild)
    | none, none, none => ([], LocaleSource.default)
  let chain := push (push start defaultLocale) fallbackLocale
  { primary := chain.head?.getD defaultLocale, chain, source }

/-- One turn of the loop of `DbBundleSource.load`. The setter behind `__proto__` ignores strings. -/
def addRow (bundle : Record JsString) (row : TranslationRow) : Record JsString :=
  if row.key = protoName then bundle else bundle.set row.key row.value

def loadRows (rows : Rows) (source : Source) : Record JsString :=
  (findBundle rows source).foldl addRow Record.empty

/-- The own properties of the bundles in the files. -/
abbrev FileBundles := JsString → JsString → Record JsString

/-- `load` of `TranslationLoader`. -/
def loadBundle (files : FileBundles) (rows : Rows) (locale ns : JsString) (guildId : Option JsString) :
    Record JsString := fun path =>
  ((match given guildId with
    | some id => loadRows rows { guildId := some id, locale, ns } path
    | none => none).or
      (loadRows rows { guildId := none, locale, ns } path)).or (files locale ns path)

/-- What a bundle has under a path. -/
inductive Message
  | text (value : JsString)
  | inherited (name : JsString)
  deriving DecidableEq

def messageAt (bundle : Record JsString) (path : JsString) : Option Message :=
  match bundle path with
  | some value => some (.text value)
  | none => if path ∈ inheritedNames then some (.inherited path) else none

inductive Outcome
  | formats (message : Message) (locale : JsString)
  | missing
  deriving DecidableEq

/-- The loop of `t` over the chain. -/
def firstMessage (message : JsString → Option Message) : List JsString → Outcome
  | [] => .missing
  | locale :: rest =>
      match message locale with
      | some message => .formats message locale
      | none => firstMessage message rest

def lookupChain (files : FileBundles) (rows : Rows) (key : TranslationKey)
    (guildId : Option JsString) (chain : List JsString) : Outcome :=
  firstMessage (fun locale => messageAt (loadBundle files rows locale key.parsed.ns guildId) key.parsed.path)
    chain

inductive MissingKeyPolicy
  | returnKey
  | returnFallback
  | returnEmpty
  deriving DecidableEq

structure I18nConfig where
  defaultLocale : JsString
  fallbackLocale : JsString
  missingKeyPolicy : MissingKeyPolicy
  reportMissingKeys : Bool

structure MissingKey where
  key : JsString
  locale : JsString
  chainTried : List JsString
  guildId : Option JsString

def missingFallback (config : I18nConfig) (key : JsString) : JsString :=
  match config.missingKeyPolicy with
  | .returnEmpty => []
  | _ => key

structure Reply where
  outcome : Outcome
  text : JsString
  reported : Option MissingKey

/-- How `t` ends: the formatter answers with the key where `icu` throws. -/
def answer (icu : Message → JsString → Option JsString) (config : I18nConfig) (key : TranslationKey)
    (context : TranslationContext) (resolved : ResolvedLocale) (outcome : Outcome) : Reply :=
  match outcome with
  | .formats message locale =>
      { outcome, text := (icu message locale).getD key.text, reported := none }
  | .missing =>
      { outcome, text := missingFallback config key.text
        reported :=
          if config.reportMissingKeys then
            some { key := key.text, locale := resolved.primary, chainTried := resolved.chain
                   guildId := context.guildId }
          else none }

/-- `t` with what `fetchGuildLocale` and `fetchUserLocale` answer. `icu` formats a message with the
values of the call. -/
def t (icu : Message → JsString → Option JsString) (config : I18nConfig) (files : FileBundles)
    (rows : Rows) (guildLocale userLocale : Option JsString) (key : TranslationKey)
    (context : TranslationContext) : Reply :=
  let resolved := resolve context guildLocale userLocale config.defaultLocale config.fallbackLocale
  answer icu config key context resolved (lookupChain files rows key context.guildId resolved.chain)

/-! What is stored under a module, a namespace and a path. -/

def rowMessage (rows : Rows) (source : Source) (module path : JsString) : Option JsString :=
  ((findBundle rows source).filter fun row => row.module = module && row.key = path).getLast?.map
    TranslationRow.value

/-- The guild override, else the global row, else the file; files have no modules. -/
def provided (files : FileBundles) (rows : Rows) (key : ParsedKey) (guildId : Option JsString)
    (locale : JsString) : Option JsString :=
  (((given guildId).bind fun id =>
      rowMessage rows { guildId := some id, locale, ns := key.ns } key.module key.path).or
    (rowMessage rows { guildId := none, locale, ns := key.ns } key.module key.path)).or
      (files locale key.ns key.path)

def promised (files : FileBundles) (rows : Rows) (key : ParsedKey) (guildId : Option JsString)
    (chain : List JsString) : Outcome :=
  firstMessage (fun locale => (provided files rows key guildId locale).map .text) chain

/-- The last listed row of the path, of whatever module. -/
def lastRow (rows : Rows) (source : Source) (path : JsString) : Option JsString :=
  ((findBundle rows source).filter fun row => row.key = path).getLast?.map TranslationRow.value

/-- What the rows of all modules and the file have under the path; no row sets `__proto__`. -/
def held (files : FileBundles) (rows : Rows) (key : ParsedKey) (guildId : Option JsString)
    (locale : JsString) : Option JsString :=
  if key.path = protoName then files locale key.ns key.path
  else
    (((given guildId).bind fun id =>
        lastRow rows { guildId := some id, locale, ns := key.ns } key.path).or
      (lastRow rows { guildId := none, locale, ns := key.ns } key.path)).or
        (files locale key.ns key.path)

/-- In every locale up to the first that provides the message, the rows of other modules and the
names that objects inherit stay out of the way. -/
def Clear (files : FileBundles) (rows : Rows) (key : ParsedKey) (guildId : Option JsString) :
    List JsString → Prop
  | [] => True
  | locale :: rest =>
      held files rows key guildId locale = provided files rows key guildId locale ∧
        (key.path ∈ inheritedNames → (provided files rows key guildId locale).isSome = true) ∧
        (provided files rows key guildId locale = none → Clear files rows key guildId rest)

/-! The bundle. -/

theorem foldl_addRow (listed : List TranslationRow) (start : Record JsString) (path : JsString) :
    listed.foldl addRow start path =
      if path = protoName then start path
      else ((listed.filter fun row => row.key = path).getLast?.map TranslationRow.value).or
        (start path) := by
  induction listed generalizing start with
  | nil => simp
  | cons row rest ih =>
      rw [List.foldl_cons, ih, addRow]
      by_cases proto : path = protoName
      · rw [if_pos proto, if_pos proto]
        split
        · rfl
        · rename_i ordinary
          exact Record.set_other start row.value fun same => ordinary (same.symm.trans proto)
      · rw [if_neg proto, if_neg proto]
        by_cases here : row.key = path
        · rw [if_neg (here ▸ proto), here, Record.set_same,
            List.filter_cons_of_pos (by simpa using here), List.getLast?_cons]
          cases (rest.filter fun row => row.key = path).getLast? <;> rfl
        · rw [List.filter_cons_of_neg (by simpa using here)]
          split
          · rfl
          · rw [Record.set_other start row.value (Ne.symm here)]

theorem loadRows_eq (rows : Rows) (source : Source) (path : JsString) :
    loadRows rows source path = if path = protoName then none else lastRow rows source path := by
  rw [loadRows, foldl_addRow]
  split
  · rfl
  · exact Option.or_none

/-- A path that rows can set is read as `loadSource` has it. -/
theorem loadRows_eq_loadSource (rows : Rows) (source : Source) {path : JsString}
    (settable : path ≠ protoName) : loadRows rows source path = loadSource rows source path := by
  rw [loadRows_eq, if_neg settable, loadSource, Record.ofList, Record.foldl_assign_eq, lastRow]
  exact congrArg _ Option.or_none.symm

theorem loadBundle_eq (files : FileBundles) (rows : Rows) (key : ParsedKey) (guildId : Option JsString)
    (locale : JsString) :
    loadBundle files rows locale key.ns guildId key.path = held files rows key guildId locale := by
  rw [loadBundle, held]
  cases given guildId with
  | none =>
      simp only [loadRows_eq, Option.bind_none, Option.none_or]
      split <;> rfl
  | some id =>
      simp only [loadRows_eq, Option.bind_some]
      split <;> rfl

theorem messageAt_iff (files : FileBundles) (rows : Rows) (key : ParsedKey)
    (guildId : Option JsString) (locale : JsString) :
    messageAt (loadBundle files rows locale key.ns guildId) key.path =
        (provided files rows key guildId locale).map .text ↔
      held files rows key guildId locale = provided files rows key guildId locale ∧
        (key.path ∈ inheritedNames → (provided files rows key guildId locale).isSome = true) := by
  rw [messageAt, loadBundle_eq]
  cases held files rows key guildId locale with
  | some value =>
      cases provided files rows key guildId locale with
      | none => simp
      | some message => simp
  | none =>
      by_cases inherits : key.path ∈ inheritedNames
      · cases provided files rows key guildId locale with
        | none => simp [inherits]
        | some message => simp [inherits]
      · cases provided files rows key guildId locale with
        | none => simp [inherits]
        | some message => simp [inherits]

/-! The chain. -/

theorem firstMessage_locale {message : JsString → Option Message} {chain : List JsString}
    {found : Message} {locale : JsString}
    (formats : firstMessage message chain = .formats found locale) : locale ∈ chain := by
  induction chain with
  | nil => cases formats
  | cons first rest ih =>
      rw [firstMessage] at formats
      cases here : message first with
      | none =>
          rw [here] at formats
          exact List.mem_cons_of_mem _ (ih formats)
      | some _ =>
          rw [here] at formats
          obtain ⟨-, rfl⟩ := Outcome.formats.inj formats
          exact List.mem_cons_self

theorem firstMessage_cons_eq_iff {first second : JsString → Option Message} {locale : JsString}
    {rest : List JsString} (isNew : locale ∉ rest) :
    firstMessage first (locale :: rest) = firstMessage second (locale :: rest) ↔
      first locale = second locale ∧
        (second locale = none → firstMessage first rest = firstMessage second rest) := by
  have elsewhere (message : JsString → Option Message) (found : Message) :
      firstMessage message rest ≠ .formats found locale := fun formats =>
    isNew (firstMessage_locale formats)
  rw [firstMessage, firstMessage]
  cases first locale with
  | none =>
      cases second locale with
      | none => simp
      | some found => simp [elsewhere]
  | some found =>
      cases second locale with
      | none => simp [Ne.symm (elsewhere second found)]
      | some other => simp

theorem push_nodup {chain : List JsString} (distinct : chain.Nodup) (locale : JsString) :
    (push chain locale).Nodup := by
  rw [push]
  split
  · exact distinct
  · rename_i isNew
    rw [← List.concat_eq_append]
    exact distinct.concat fun member => isNew (.inr member)

theorem resolve_nodup (context : TranslationContext)
    (guildLocale userLocale : Option JsString) (defaultLocale fallbackLocale : JsString) :
    (resolve context guildLocale userLocale defaultLocale fallbackLocale).chain.Nodup := by
  rw [resolve]
  split
  rename_i start source chosen
  have distinct : start.Nodup := by
    split at chosen
    · obtain ⟨rfl, -⟩ := Prod.mk.inj chosen
      exact push_nodup List.nodup_nil _
    · obtain ⟨rfl, -⟩ := Prod.mk.inj chosen
      exact push_nodup List.nodup_nil _
    · obtain ⟨rfl, -⟩ := Prod.mk.inj chosen
      exact push_nodup List.nodup_nil _
    · obtain ⟨rfl, -⟩ := Prod.mk.inj chosen
      exact List.nodup_nil
  exact push_nodup (push_nodup distinct _) _

theorem lookupChain_eq_iff (files : FileBundles) (rows : Rows) (key : TranslationKey)
    (guildId : Option JsString) {chain : List JsString} (distinct : chain.Nodup) :
    lookupChain files rows key guildId chain = promised files rows key.parsed guildId chain ↔
      Clear files rows key.parsed guildId chain := by
  induction chain with
  | nil => simp [lookupChain, promised, firstMessage, Clear]
  | cons locale rest ih =>
      obtain ⟨isNew, later⟩ := List.nodup_cons.mp distinct
      have next := ih later
      rw [lookupChain, promised] at next
      rw [lookupChain, promised, firstMessage_cons_eq_iff isNew, messageAt_iff, next, Clear,
        Option.map_eq_none_iff, and_assoc]

theorem answer_outcome (icu : Message → JsString → Option JsString) (config : I18nConfig)
    (key : TranslationKey) (context : TranslationContext) (resolved : ResolvedLocale)
    (outcome : Outcome) : (answer icu config key context resolved outcome).outcome = outcome := by
  cases outcome <;> rfl

/-- `t` formats what is stored under the module, namespace and path, or applies the policy for
missing keys, exactly where the chain is clear. -/
theorem t_exact_iff (icu : Message → JsString → Option JsString) (config : I18nConfig)
    (files : FileBundles) (rows : Rows) (guildLocale userLocale : Option JsString)
    (key : TranslationKey) (context : TranslationContext) :
    let resolved := resolve context guildLocale userLocale config.defaultLocale config.fallbackLocale
    t icu config files rows guildLocale userLocale key context =
        answer icu config key context resolved
          (promised files rows key.parsed context.guildId resolved.chain) ↔
      Clear files rows key.parsed context.guildId resolved.chain := by
  intro resolved
  rw [← lookupChain_eq_iff files rows key context.guildId
    (resolve_nodup context guildLocale userLocale config.defaultLocale config.fallbackLocale), t]
  constructor
  · intro same
    have outcomes := congrArg Reply.outcome same
    rwa [answer_outcome, answer_outcome] at outcomes
  · intro same
    rw [same]

theorem lastRow_unshared {rows : Rows} {key : ParsedKey}
    (unshared : ∀ row ∈ rows.rows, row.deletedAt = none → row.ns = key.ns → row.key = key.path →
      row.module = key.module) (guildId : Option JsString) (locale : JsString) :
    lastRow rows { guildId, locale, ns := key.ns } key.path =
      rowMessage rows { guildId, locale, ns := key.ns } key.module key.path := by
  rw [lastRow, rowMessage]
  congr 2
  refine List.filter_congr fun row member => ?_
  obtain ⟨isRow, listed⟩ := List.mem_filter.mp member
  simp only [Bool.and_eq_true, decide_eq_true_eq] at listed
  by_cases here : row.key = key.path
  · simp [here, unshared row isRow listed.2 (congrArg Source.ns listed.1) here]
  · simp [here]

/-- Where no other module has rows of the path and no object inherits the name, all is clear. -/
theorem clear_of_unshared {files : FileBundles} {rows : Rows} {key : ParsedKey}
    (ordinary : key.path ∉ inheritedNames)
    (unshared : ∀ row ∈ rows.rows, row.deletedAt = none → row.ns = key.ns → row.key = key.path →
      row.module = key.module) (guildId : Option JsString) (chain : List JsString) :
    Clear files rows key guildId chain := by
  have notProto : key.path ≠ protoName := by
    have inherits : protoName ∈ inheritedNames := by decide +kernel
    exact fun same => ordinary (same ▸ inherits)
  induction chain with
  | nil => trivial
  | cons locale rest ih =>
      refine ⟨?_, fun inherits => absurd inherits ordinary, fun _ => ih⟩
      simp only [held, provided, if_neg notProto, lastRow_unshared unshared]

/-- A key of the module `welcome`. -/
def welcomeKey (path : JsString) (formed : parseKey (js "welcome:general." ++ path) =
    some { module := js "welcome", ns := js "general", path }) : TranslationKey :=
  { text := js "welcome:general." ++ path
    parsed := { module := js "welcome", ns := js "general", path }, formed }

def titleOfLevels : TranslationRow :=
  { id := js "a", guildId := none, locale := js "pt", module := js "levels", ns := js "general"
    key := js "title", value := js "Levels", updatedBy := none, deletedAt := none }

def defaults : I18nConfig :=
  { defaultLocale := js "pt", fallbackLocale := js "en", missingKeyPolicy := .returnKey
    reportMissingKeys := true }

/-- The title of `levels` answers for that of `welcome`, and for the path `constructor` the bundle
answers with what it inherits. -/
theorem t_confused :
    (let key := welcomeKey (js "title") (by decide +kernel)
     let rows : Rows := { rows := [titleOfLevels], distinct := by decide }
     let context : TranslationContext := { guildId := none, localeOverride := none }
     let resolved := resolve context none none defaults.defaultLocale defaults.fallbackLocale
     t (fun _ _ => none) defaults (fun _ _ => Record.empty) rows none none key context ≠
      answer (fun _ _ => none) defaults key context resolved
        (promised (fun _ _ => Record.empty) rows key.parsed none resolved.chain)) ∧
    (let key := welcomeKey (js "constructor") (by decide +kernel)
     let context : TranslationContext := { guildId := none, localeOverride := none }
     let resolved := resolve context none none defaults.defaultLocale defaults.fallbackLocale
     t (fun _ _ => none) defaults (fun _ _ => Record.empty) Table.empty none none key context ≠
      answer (fun _ _ => none) defaults key context resolved
        (promised (fun _ _ => Record.empty) Table.empty key.parsed none resolved.chain)) := by
  constructor
  · exact fun same => absurd (congrArg Reply.outcome same) (by decide +kernel)
  · exact fun same => absurd (congrArg Reply.outcome same) (by decide +kernel)

end I18n
