import ArmstrongBot.Api.ResponseCache
import ArmstrongBot.Audit.Export
import ArmstrongBot.Audit.Iteration
import ArmstrongBot.Library.IsoDate
import ArmstrongBot.Library.JsNumberValues
import ArmstrongBot.Library.KeyedCache
import ArmstrongBot.Library.OffsetPaging

/-! `AuditService.query`: a page of the ledger, read from the table or from the cache. -/

namespace Audit

open JsText JsJson JsNumber
open Calendar (Timestamp)
open ResponseCache

@[ext]
structure PagedQuery extends AuditQuery where
  page : Nat
  pageSize : Nat

structure Page (ι : Type) where
  items : List ι
  page : Nat
  pageSize : Nat
  total : Nat

/-- `orderBy: [{ occurredAt: 'desc' }, { id: 'desc' }]` over the rows that the query selects. -/
def latestFirst (rows : List AuditEntry) (query : AuditQuery) : List AuditEntry :=
  (rows.filter (toWhere query)).insertionSort fun first second => exportOrder second first = true

def find (rows : List AuditEntry) (query : PagedQuery) : Page AuditEntry :=
  { items := OffsetPaging.pageOf (latestFirst rows query.toAuditQuery) query.page query.pageSize
    page := query.page
    pageSize := query.pageSize
    total := (rows.filter (toWhere query.toAuditQuery)).length }

def clamp (maxPageSize : Nat) (query : PagedQuery) : PagedQuery :=
  { query with
    page := Nat.max 1 query.page
    pageSize := Nat.min (Nat.max 1 query.pageSize) maxPageSize }

/-! The pages of a query against the export of the same filters. -/

theorem latestFirst_perm (rows : List AuditEntry) (query : AuditQuery) :
    (latestFirst rows query).Perm (rows.filter (toWhere query)) :=
  List.perm_insertionSort _ _

theorem latestFirst_ordered (rows : List AuditEntry) (query : AuditQuery) :
    (latestFirst rows query).Pairwise fun first second => exportOrder second first = true := by
  have total : Std.Total fun first second : AuditEntry => exportOrder second first = true :=
    ⟨fun first second => exportKeyset.total second first⟩
  have transitive : IsTrans AuditEntry fun first second => exportOrder second first = true :=
    ⟨fun first second third before after => exportKeyset.transitive third second first after before⟩
  exact List.pairwise_insertionSort _ _

theorem exportOrder_antisymm {first second : AuditEntry} (before : exportOrder first second = true)
    (after : exportOrder second first = true) : first.id = second.id := by
  rcases exportOrder_iff.mp before with earlier | ⟨together, le⟩ <;>
    rcases exportOrder_iff.mp after with later | ⟨alike, ge⟩
  · exact absurd later (Int.lt_asymm earlier)
  · exact absurd alike.symm (Int.ne_of_lt earlier)
  · exact absurd together.symm (Int.ne_of_lt later)
  · exact le_antisymm le ge

/-- Rows in the order of the export and rows the latest first are one another backwards. -/
theorem eq_reverse_latestFirst (table : AuditTable) (query : AuditQuery)
    {streamed : List AuditEntry} (perm : streamed.Perm (table.rows.filter (toWhere query)))
    (ordered : streamed.Pairwise fun first second => exportOrder first second = true) :
    streamed = (latestFirst table.rows query).reverse := by
  have backwards : (latestFirst table.rows query).reverse.Pairwise fun first second =>
      exportOrder first second = true :=
    List.pairwise_reverse.mpr (latestFirst_ordered table.rows query)
  refine List.Perm.eq_of_pairwise ?_ ordered backwards
    (perm.trans ((latestFirst_perm table.rows query).symm.trans (List.reverse_perm _).symm))
  intro first second isFirst isSecond before after
  have sameId := exportOrder_antisymm before after
  have known {row : AuditEntry} (member : row ∈ table.rows.filter (toWhere query)) :
      row ∈ table.rows := List.mem_of_mem_filter member
  have firstRow := known (perm.mem_iff.mp isFirst)
  have secondRow := known
    ((latestFirst_perm table.rows query).mem_iff.mp (List.mem_reverse.mp isSecond))
  have distinct : (table.rows.map AuditEntry.id).Nodup := List.pairwise_map.mpr table.primary
  exact List.inj_on_of_nodup_map distinct firstRow secondRow sameId

section

variable (exportSortings : Nat → KeysetScan.Sorting exportKeyset) (batch : BatchSize)
  (table : AuditTable) (query : AuditQuery) (pageSize : Nat)

def pageAt (index : Nat) : Page AuditEntry :=
  find table.rows { query with page := index + 1, pageSize }

def pagesOf : Nat := OffsetPaging.pageCount (pageAt table query pageSize 0).total pageSize

/-- The export ends, and is then the sequence of all pages backwards; every page has the same total,
and past the last page there is nothing. -/
def PagesAreExport : Prop :=
  ∃ count, (KeysetScan.scan exportSortings batch.rows (table.rows.filter (toWhere query)) none
      count).isOver = true ∧
    (KeysetScan.scan exportSortings batch.rows (table.rows.filter (toWhere query)) none
      count).yielded =
      ((List.range (pagesOf table query pageSize)).flatMap fun index =>
        (pageAt table query pageSize index).items).reverse ∧
    (∀ index, (pageAt table query pageSize index).total = (pageAt table query pageSize 0).total) ∧
    ∀ index, pagesOf table query pageSize ≤ index → (pageAt table query pageSize index).items = []

/-- While the table stays as it is, the pages of some filters, of whatever size, are the export of
these filters from its end to its start. -/
theorem pages_are_export (positive : 0 < pageSize) :
    PagesAreExport exportSortings batch table query pageSize := by
  obtain ⟨count, isOver, perm, ordered⟩ := streams_all exportSortings batch table query
  have total : (latestFirst table.rows query).length = (pageAt table query pageSize 0).total :=
    (latestFirst_perm table.rows query).length_eq
  refine ⟨count, isOver, ?_, fun _ => rfl, ?_⟩
  · have isPages : pagesOf table query pageSize =
        OffsetPaging.pageCount (latestFirst table.rows query).length pageSize := by
      rw [total, pagesOf]
    have all := OffsetPaging.firstPages_all (latestFirst table.rows query) positive
    rw [eq_reverse_latestFirst table query perm ordered, isPages]
    exact congrArg List.reverse all.symm
  · intro index past
    refine OffsetPaging.pageOf_past positive ?_
    rw [total]
    exact Nat.lt_succ_of_le past

end

theorem pages_are_export_crowded :
    PagesAreExport (fun _ => KeysetScan.Sorting.stable exportKeyset) .ofSource crowdedTable
      { guildId := none, scope := some .global, actorId := none, action := none
        targetType := none, targetId := none, correlationId := none, source := none
        earliest := none, latest := none } 100 :=
  pages_are_export _ _ _ _ 100 (by decide)

/-! What the cache keeps of a page. -/

/-- The value of an enumeration that has the text. -/
def ofText {α : Type} (values : List α) (text : α → JsString) (read : JsString) : Option α :=
  values.find? fun value => text value = read

theorem ofText_text {α : Type} {values : List α} {text : α → JsString} {value : α}
    (injective : ∀ other ∈ values, text other = text value → other = value)
    (member : value ∈ values) : ofText values text (text value) = some value := by
  cases found : ofText values text (text value) with
  | none => simpa using List.find?_eq_none.mp found value member
  | some other =>
      have same : text other = text value := by simpa using List.find?_some found
      rw [injective other (List.mem_of_find?_eq_some found) same]

/-- `BigInt(text)` for a decimal text. -/
def readInt : JsString → Int
  | [] => 0
  | code :: rest => if code = unit 45 then -(readNat rest : Int) else readNat (code :: rest)

theorem readInt_intText (value : Int) : readInt (intText value) = value := by
  unfold intText
  split
  · rw [readInt, if_pos rfl, readNat_natText]
    omega
  · have digits := natText_isDigit value.natAbs
    have worth := readNat_natText value.natAbs
    cases isText : natText value.natAbs with
    | nil =>
        rw [isText] at worth
        have zero : value.natAbs = 0 := worth.symm
        rw [readInt]
        omega
    | cons code rest =>
        have notMinus : code ≠ unit 45 := by
          rintro rfl
          have isDigit := digits (unit 45) (by rw [isText]; exact List.mem_cons_self)
          exact absurd isDigit (by decide)
        rw [isText] at worth
        rw [readInt, if_neg notMinus, worth]
        omega

def sources : List AuditSource := [.command, .dashboard, .api, .job, .system, .event]

def fromWire (wire : ExportedEntry) : Option AuditEntry := do
  let scope ← ofText [.guild, .global] AuditScope.text wire.scope
  let source ← ofText sources AuditSource.text wire.source
  let actorType ← ofText [.user, .system, .bot] AuditActorType.text wire.actorType
  let occurredAt ← IsoDate.parse wire.occurredAt
  let createdAt ← IsoDate.parse wire.createdAt
  some
    { scope, guildId := wire.guildId, action := wire.action, source, actorId := wire.actorId
      actorType, targetType := wire.targetType, targetId := wire.targetId
      channelId := wire.channelId, correlationId := wire.correlationId
      causationId := wire.causationId, summary := wire.summary, metadata := wire.metadata
      before := wire.before, after := wire.after, occurredAt, id := wire.id
      seq := readInt wire.seq, previousHash := wire.previousHash, hash := wire.hash, createdAt }

def toCacheable (page : Page AuditEntry) : Page ExportedEntry :=
  { page with items := page.items.map toWire }

def fromCacheable (page : Page ExportedEntry) : Option (Page AuditEntry) :=
  (page.items.mapM fromWire).map fun items => { page with items }

/-- The dates of an entry are none that would not print. -/
structure Dated (entry : AuditEntry) : Prop where
  occurredAt : IsoDate.Valid entry.occurredAt
  createdAt : IsoDate.Valid entry.createdAt

theorem fromWire_toWire {entry : AuditEntry} (dated : Dated entry) :
    fromWire (toWire entry) = some entry := by
  have scope : ofText [.guild, .global] AuditScope.text entry.scope.text = some entry.scope := by
    refine ofText_text ?_ (by cases entry.scope <;> decide)
    cases entry.scope <;> decide +kernel
  have source : ofText sources AuditSource.text entry.source.text = some entry.source := by
    refine ofText_text ?_ (by cases entry.source <;> decide)
    cases entry.source <;> decide +kernel
  have actorType : ofText [.user, .system, .bot] AuditActorType.text entry.actorType.text =
      some entry.actorType := by
    refine ofText_text ?_ (by cases entry.actorType <;> decide)
    cases entry.actorType <;> decide +kernel
  simp only [fromWire, toWire, scope, source, actorType, IsoDate.parse_toISOString dated.occurredAt,
    IsoDate.parse_toISOString dated.createdAt, readInt_intText, Option.bind_eq_bind,
    Option.bind_some]

theorem fromCacheable_toCacheable {page : Page AuditEntry}
    (dated : ∀ entry ∈ page.items, Dated entry) : fromCacheable (toCacheable page) = some page := by
  have read : ∀ items : List AuditEntry, (∀ entry ∈ items, Dated entry) →
      (items.map toWire).mapM fromWire = some items := by
    intro items
    induction items with
    | nil => exact fun _ => rfl
    | cons entry rest ih =>
        intro all
        rw [List.map_cons, List.mapM_cons, fromWire_toWire (all entry List.mem_cons_self),
          ih fun other member => all other (List.mem_cons_of_mem _ member)]
        rfl
  simp only [fromCacheable, toCacheable, read page.items dated, Option.map_some]

/-! The key of a query in the cache. -/

def nullable (text : Option JsString) : Json := text.elim .null .str

def pageFields (query : PagedQuery) : Fields :=
  [(js "page", .num (.ofNat query.page)), (js "pageSize", .num (.ofNat query.pageSize))]

def queryFields (query : PagedQuery) : Fields :=
  [(js "guildId", nullable query.guildId),
    (js "scope", nullable (query.scope.map AuditScope.text)),
    (js "actorId", nullable query.actorId),
    (js "action", nullable query.action),
    (js "targetType", nullable query.targetType),
    (js "targetId", nullable query.targetId),
    (js "correlationId", nullable query.correlationId),
    (js "source", nullable (query.source.map AuditSource.text)),
    (js "from", nullable (query.earliest.map Calendar.toISOString)),
    (js "to", nullable (query.latest.map Calendar.toISOString)),
    (js "pagination", .obj (pageFields query))]

/-- A query as `canonicalJson` sees it: what is `undefined` is `null`, and dates are texts. -/
def queryJson (query : PagedQuery) : Json := .obj (queryFields query)

def digestLength : Nat := 32

/-- `queryCacheKey`; `sha256` gives the digest in hexadecimal. -/
def queryCacheKey (sha256 : JsString → JsString) (query : PagedQuery) : Option JsString :=
  let digest := (sha256 (canonicalJson (queryJson query))).take digestLength
  let parts := [js "audit", js "query", digest]
  match query.guildId.filter fun guildId => guildId ≠ [] with
  | some guildId => CacheKeyBuilder.forGuild guildId generic parts
  | none => CacheKeyBuilder.forGlobal generic parts

/-- Objects with the same keys, in the same order, that are alike to `canonicalJson` have like
values. -/
theorem values_of_normalise {left right : Fields} (names : keys left = keys right)
    (distinct : (keys left).Nodup) (plain : protoKey ∉ keys left)
    (same : normalise (.obj left) = normalise (.obj right)) :
    List.Forall₂ (fun first second => normalise first.2 = normalise second.2) left right := by
  have rightDistinct : (keys right).Nodup := names ▸ distinct
  have alike : List.Forall₂ (fun first second : JsString × Json => first.1 = second.1) left
      right := by
    rw [keys, keys, ← List.forall₂_eq_eq_eq, List.forall₂_map_left_iff,
      List.forall₂_map_right_iff] at names
    exact names
  obtain ⟨lengths, pairs⟩ := List.forall₂_iff_zip.mp alike
  refine List.forall₂_iff_zip.mpr ⟨lengths, ?_⟩
  intro first second member
  have sameName := pairs member
  obtain ⟨isLeft, isRight⟩ := List.of_mem_zip member
  have notProto : first.1 ≠ protoKey := fun isProto =>
    plain (isProto ▸ mem_keys.mpr ⟨first.2, isLeft⟩)
  have related := (normalise_obj_eq_iff distinct rightDistinct).mp same first.1 notProto
  rw [lookup_of_mem distinct isLeft, sameName, lookup_of_mem rightDistinct isRight] at related
  simpa using related

theorem nullable_injective {left right : Option JsString}
    (same : normalise (nullable left) = normalise (nullable right)) : left = right := by
  cases left with
  | none =>
      cases right with
      | none => rfl
      | some text => cases same
  | some text =>
      cases right with
      | none => cases same
      | some other => exact congrArg some (Json.str.inj same)

theorem queryFields_values {left right : PagedQuery}
    (same : normalise (queryJson left) = normalise (queryJson right)) :
    List.Forall₂ (fun first second => normalise first.2 = normalise second.2) (queryFields left)
      (queryFields right) := by
  have distinct : (keys (queryFields left)).Nodup := by
    simp only [keys, queryFields, List.map_cons, List.map_nil]
    decide +kernel
  have plain : protoKey ∉ keys (queryFields left) := by
    simp only [keys, queryFields, List.map_cons, List.map_nil]
    decide +kernel
  exact values_of_normalise rfl distinct plain same

theorem scope_of_text {first second : AuditScope} (same : first.text = second.text) :
    first = second := by
  revert same
  cases first <;> cases second <;> decide +kernel

theorem source_of_text {first second : AuditSource} (same : first.text = second.text) :
    first = second := by
  revert same
  cases first <;> cases second <;> decide +kernel

/-- Queries with one canonical text are one query. -/
theorem queryJson_injective {left right : PagedQuery}
    (same : canonicalJson (queryJson left) = canonicalJson (queryJson right)) : left = right := by
  have values := queryFields_values (stringify_injective same)
  simp only [queryFields, List.forall₂_cons, List.forall₂_nil_right_iff, and_true] at values
  obtain ⟨guildId, scope, actorId, action, targetType, targetId, correlationId, source, earliest,
    latest, pagination⟩ := values
  have pageNames : keys (pageFields left) = [js "page", js "pageSize"] := rfl
  have pages : List.Forall₂ (fun first second => normalise first.2 = normalise second.2)
      (pageFields left) (pageFields right) :=
    values_of_normalise rfl (by rw [pageNames]; decide +kernel) (by rw [pageNames]; decide +kernel)
      pagination
  simp only [pageFields, List.forall₂_cons, List.forall₂_nil_right_iff, and_true] at pages
  have page := Number.ofNat_injective (Json.num.inj pages.1)
  have pageSize := Number.ofNat_injective (Json.num.inj pages.2)
  refine PagedQuery.ext (nullable_injective guildId) ?_ (nullable_injective actorId)
    (nullable_injective action) (nullable_injective targetType) (nullable_injective targetId)
    (nullable_injective correlationId) ?_ ?_ ?_ page pageSize
  · exact Option.map_injective (fun _ _ => scope_of_text) (nullable_injective scope)
  · exact Option.map_injective (fun _ _ => source_of_text) (nullable_injective source)
  · exact Option.map_injective (fun _ _ => Calendar.toISOString_injective)
      (nullable_injective earliest)
  · exact Option.map_injective (fun _ _ => Calendar.toISOString_injective)
      (nullable_injective latest)

/-- The digest ends the key. -/
theorem queryCacheKey_digest {sha256 : JsString → JsString}
    (long : ∀ text, digestLength ≤ (sha256 text).length) {left right : PagedQuery} {key : JsString}
    (leftKey : queryCacheKey sha256 left = some key)
    (rightKey : queryCacheKey sha256 right = some key) :
    (sha256 (canonicalJson (queryJson left))).take digestLength =
      (sha256 (canonicalJson (queryJson right))).take digestLength := by
  have ends {query : PagedQuery} (isKey : queryCacheKey sha256 query = some key) :
      ∃ front, key = front ++ (sha256 (canonicalJson (queryJson query))).take digestLength := by
    have suffix (digest : JsString) : CacheKeyBuilder.suffixOf [js "audit", js "query", digest] =
        (colon :: js "audit" ++ colon :: (js "query" ++ [colon])) ++ digest := by
      rw [suffixOf_cons _ (by simp), suffixOf_cons _ (by simp), suffixOf_singleton]
      simp
    unfold queryCacheKey at isKey
    dsimp only at isKey
    split at isKey
    · rw [forGuild_generic] at isKey
      split at isKey
      · cases isKey
      · rw [← Option.some.inj isKey, suffix, ← List.append_assoc]
        exact ⟨_, rfl⟩
    · rw [forGlobal_generic] at isKey
      rw [← Option.some.inj isKey, suffix, ← List.append_assoc]
      exact ⟨_, rfl⟩
  obtain ⟨front, isLeft⟩ := ends leftKey
  obtain ⟨other, isRight⟩ := ends rightKey
  rw [isLeft] at isRight
  refine (List.append_inj' isRight ?_).2
  rw [List.length_take_of_le (long _), List.length_take_of_le (long _)]

/-! Runs: queries in any number of processes, each with what its loader would find. -/

structure Asked where
  query : PagedQuery
  entries : List AuditEntry
  dated : ∀ entry ∈ entries, Dated entry

def Asked.page (maxPageSize : Nat) (asked : Asked) : Page AuditEntry :=
  find asked.entries (clamp maxPageSize asked.query)

def Asked.key (sha256 : JsString → JsString) (maxPageSize : Nat) (asked : Asked) :
    Option JsString :=
  queryCacheKey sha256 (clamp maxPageSize asked.query)

/-- The digests tell the queries apart, clamped as they are. -/
def DigestsApart (sha256 : JsString → JsString) (maxPageSize : Nat) (requests : Asked → Prop) :
    Prop :=
  ∀ first second, requests first → requests second →
    (sha256 (canonicalJson (queryJson (clamp maxPageSize first.query)))).take digestLength =
      (sha256 (canonicalJson (queryJson (clamp maxPageSize second.query)))).take digestLength →
    canonicalJson (queryJson (clamp maxPageSize first.query)) =
      canonicalJson (queryJson (clamp maxPageSize second.query))

theorem mem_find {rows : List AuditEntry} {query : PagedQuery} {entry : AuditEntry}
    (member : entry ∈ (find rows query).items) : entry ∈ rows := by
  have isSorted : entry ∈ latestFirst rows query.toAuditQuery :=
    List.mem_of_mem_drop (List.mem_of_mem_take member)
  exact List.mem_of_mem_filter ((latestFirst_perm rows _).mem_iff.mp isSorted)

/-- Whatever process asks, and whoever loaded the page, an answer out of the cache is a page that
the table gave for the very query that is answered, entry by entry as the table has it. -/
theorem cached_answers {sha256 : JsString → JsString} {maxPageSize : Nat}
    {requests : Asked → Prop} (long : ∀ text, digestLength ≤ (sha256 text).length)
    (apart : DigestsApart sha256 maxPageSize requests)
    {events : List (KeyedCache.Event JsString Asked)} {final : KeyedCache.State JsString Asked}
    (asksOnly : KeyedCache.AsksOnly requests events)
    (ran : StepMachine.run (KeyedCache.step (Asked.key sha256 maxPageSize)) KeyedCache.start
      events = some final) :
    ∀ answer ∈ final.answers,
      fromCacheable (toCacheable (answer.2.page maxPageSize)) =
        some (find answer.2.entries (clamp maxPageSize answer.1.query)) := by
  refine (KeyedCache.answers_right_iff_keys_apart requests fun asker origin =>
    fromCacheable (toCacheable (origin.page maxPageSize)) =
      some (find origin.entries (clamp maxPageSize asker.query))).mpr ?_ events final asksOnly ran
  intro asker origin key asks isOrigin askerKey originKey
  have digests := queryCacheKey_digest long askerKey originKey
  have sameQuery := queryJson_injective (apart asker origin asks isOrigin digests)
  rw [sameQuery]
  exact fromCacheable_toCacheable fun entry member => origin.dated entry (mem_find member)

/-! A page that is asked for again after its entry was pruned; the digest is the length. -/

def lengthDigest (text : JsString) : JsString := padStart digestLength (natText text.length)

theorem lengthDigest_long (text : JsString) : digestLength ≤ (lengthDigest text).length := by
  simp only [lengthDigest, padStart, List.length_append, List.length_replicate]
  omega

def firstPage : PagedQuery :=
  { guildId := some (js "g1"), scope := some .guild, actorId := none, action := none
    targetType := none, targetId := none, correlationId := none, source := none
    earliest := none, latest := none, page := 1, pageSize := 25 }

def askedFirst : Asked :=
  { query := firstPage
    entries := [closedIn (some (js "c9"))]
    dated := by
      intro entry member
      rw [List.mem_singleton.mp member]
      exact ⟨by decide, by decide⟩ }

def askedAgain : Asked := { query := firstPage, entries := [], dated := by simp }

theorem key_of_query {first second : Asked} (sha256 : JsString → JsString) (maxPageSize : Nat)
    (same : first.query = second.query) :
    first.key sha256 maxPageSize = second.key sha256 maxPageSize := by
  rw [Asked.key, Asked.key, same]

theorem cached_answers_again :
    fromCacheable (toCacheable (askedFirst.page 100)) =
      some (find askedFirst.entries (clamp 100 askedAgain.query)) := by
  have apart : DigestsApart lengthDigest 100 fun asked => asked.query = firstPage := by
    intro first second isFirst isSecond _
    rw [isFirst, isSecond]
  have hasKey : (askedFirst.key lengthDigest 100).isSome = true := by decide +kernel
  obtain ⟨key, isKey⟩ := Option.isSome_iff_exists.mp hasKey
  have sameQuery : askedAgain.query = askedFirst.query := rfl
  have againKey := (key_of_query lengthDigest 100 sameQuery).trans isKey
  obtain ⟨final, ran, member⟩ := KeyedCache.answered againKey isKey
  have asksOnly : KeyedCache.AsksOnly (fun asked : Asked => asked.query = firstPage)
      [.ask 0 askedFirst, .resume 0 false, .load 0 key, .ask 0 askedAgain] := by
    intro event isEvent process asker isAsk
    subst isAsk
    simp only [List.mem_cons, KeyedCache.Event.ask.injEq, reduceCtorEq, List.not_mem_nil, or_false,
      false_or] at isEvent
    rcases isEvent with ⟨_, rfl⟩ | ⟨_, rfl⟩
    · rfl
    · rfl
  exact cached_answers lengthDigest_long apart asksOnly ran (askedAgain, askedFirst) member

end Audit
