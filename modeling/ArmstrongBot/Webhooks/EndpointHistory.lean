import ArmstrongBot.Webhooks.Endpoints

/-! The rows of the endpoints and the records read from them, against the log of the updates. -/

namespace WebhookEndpoints

open JsText

variable {log returned : List Update} {update : Update} {row : WebhookEndpointRecord}

theorem cacheKey_injective {first second : JsString} (same : cacheKey first = cacheKey second) :
    first = second := List.append_cancel_left same

/-! What an update leaves behind. -/

/-- The row is as the update left it, or was changed after it. -/
def Follows (log : List Update) (update : Update) (row : WebhookEndpointRecord) : Prop :=
  match update.change with
  | .rotate => row.token ≠ update.token
  | change => change.closes = true → row.id = update.id → row.active = true → Reopened log update

theorem follows_rotate (rotates : update.change = .rotate) :
    Follows log update row ↔ row.token ≠ update.token := by
  rw [Follows, rotates]

theorem follows_iff (rotates : update.change ≠ .rotate) :
    Follows log update row ↔
      (update.change.closes = true → row.id = update.id → row.active = true →
        Reopened log update) := by
  cases isChange : update.change <;> simp_all [Follows]

theorem Reopened.cons (reopened : Reopened log update) (newest : Update) :
    Reopened (newest :: log) update := by
  obtain ⟨later, member, opens⟩ := reopened
  exact ⟨later, List.mem_cons_of_mem _ member, opens⟩

theorem Follows.cons (follows : Follows log update row) (newest : Update) :
    Follows (newest :: log) update row := by
  by_cases rotates : update.change = .rotate
  · rw [follows_rotate rotates] at follows ⊢
    exact follows
  · rw [follows_iff rotates] at follows ⊢
    exact fun closes same active => (follows closes same active).cons newest

/-- The rows of the table, against the log and the tokens drawn. -/
structure RowsSound (log : List Update) (drawn : List JsString) (rows : Rows) : Prop where
  tokens : ∀ row ∈ rows.rows, row.token ∈ drawn
  apart : ∀ row ∈ rows.rows, ∀ other ∈ rows.rows, row.token = other.token → row = other
  follows : ∀ update ∈ log, ∀ row ∈ rows.rows, Follows log update row
  logged : ∀ update ∈ log, update.stamp ≤ log.length ∧ update.token ∈ drawn
  present : ∀ update ∈ log, ∃ row ∈ rows.rows, row.id = update.id

/-- A record under its key, as it was read: no update that has returned contradicts it. -/
structure Good (log returned : List Update) (key : JsString) (row : Stamped) : Prop where
  keyed : key = cacheKey row.record.token
  read : row.read ≤ log.length
  follows : ∀ update ∈ log, update.stamp ≤ row.read → Follows log update row.record
  clean : ∀ update ∈ returned, update.contradicts row = false

theorem bars_rotate (rotates : update.change = .rotate) {token endpointId : JsString} :
    Bars log update token endpointId ↔ token = update.token := by
  rw [Bars, rotates]

theorem bars_iff (rotates : update.change ≠ .rotate) {token endpointId : JsString} :
    Bars log update token endpointId ↔
      update.change.closes = true ∧ endpointId = update.id ∧ ¬ Reopened log update := by
  cases isChange : update.change <;> simp_all [Bars]

theorem contradicts_rotate (rotates : update.change = .rotate) (row : Stamped) :
    update.contradicts row = (row.record.active && decide (row.record.token = update.token)) := by
  rw [Update.contradicts, rotates]

theorem contradicts_eq (rotates : update.change ≠ .rotate) (row : Stamped) :
    update.contradicts row = (row.record.active && (update.change.closes &&
      decide (row.record.id = update.id) && decide (row.read < update.stamp))) := by
  cases isChange : update.change <;> simp_all [Update.contradicts]

/-- An update bars no call that goes by an active record which it does not contradict. -/
theorem Good.not_bars {token : JsString} {row : Stamped}
    (good : Good log returned (cacheKey token) row) (active : row.record.active = true)
    (isReturned : update ∈ returned) (isLogged : update ∈ log) :
    ¬ Bars log update token row.record.id := by
  have clean := good.clean update isReturned
  by_cases rotates : update.change = .rotate
  · rw [contradicts_rotate rotates, active] at clean
    rw [bars_rotate rotates, cacheKey_injective good.keyed]
    simpa using clean
  · rw [contradicts_eq rotates, active] at clean
    rw [bars_iff rotates]
    rintro ⟨closes, same, notReopened⟩
    have known : update.stamp ≤ row.read := by simpa [closes, same] using clean
    have follows := (follows_iff rotates).mp (good.follows update isLogged known)
    exact notReopened (follows closes same active)

theorem findFirst_some {rows : Rows} {token : JsString} (found : findFirst rows token = some row) :
    row ∈ rows.rows ∧ row.token = token := by
  rw [findFirst] at found
  have selected : row.token = token ∧ row.deletedAt = none := by
    simpa using List.find?_some found
  exact ⟨List.mem_of_find?_eq_some found, selected.1⟩

/-- What is read from the table goes with every update there has been. -/
theorem RowsSound.good {drawn : List JsString} {rows : Rows} (sound : RowsSound log drawn rows)
    (logged : ∀ update ∈ returned, update ∈ log) {token : JsString}
    (found : findFirst rows token = some row) :
    Good log returned (cacheKey token) { record := row, read := log.length } := by
  obtain ⟨member, rfl⟩ := findFirst_some found
  refine ⟨rfl, Nat.le_refl _, fun update isLogged _ => sound.follows update isLogged row member, ?_⟩
  intro update isReturned
  have isLogged := logged update isReturned
  by_cases rotates : update.change = .rotate
  · have follows := (follows_rotate rotates).mp (sound.follows update isLogged row member)
    simp [contradicts_rotate rotates, follows]
  · have known : ¬ log.length < update.stamp := Nat.not_lt.mpr (sound.logged update isLogged).1
    simp [contradicts_eq rotates, known]

/-! What an update does to the table. -/

section Rows

variable {rows : Rows} {drawn : List JsString} {change : Change} {input : Input} {id : JsString}
  {changed : WebhookEndpointRecord}

theorem findById_some (found : findById rows id = some row) : row ∈ rows.rows ∧ row.id = id := by
  obtain ⟨isRow, _⟩ := Option.filter_eq_some_iff.mp found
  exact Table.find_eq_some_iff.mp isRow

theorem mem_updateMany (found : findById rows id = some row)
    (member : changed ∈ (updateMany rows id change input).rows) :
    changed = change.apply input row ∨ changed ∈ rows.rows ∧ changed.id ≠ id := by
  obtain ⟨isRow, live⟩ := Option.filter_eq_some_iff.mp found
  obtain ⟨before, isBefore, rfl⟩ := List.mem_map.mp member
  by_cases same : before.id = id
  · have isKey := Table.find_key isBefore
    simp only [same, isRow, Option.some_inj] at isKey
    subst isKey
    left
    rw [if_pos (by simpa [same] using live)]
  · right
    rw [if_neg (by simp [same])]
    exact ⟨isBefore, same⟩

theorem id_updateMany (member : row ∈ rows.rows) :
    ∃ changed ∈ (updateMany rows id change input).rows, changed.id = row.id := by
  refine ⟨_, List.mem_map_of_mem member, ?_⟩
  split
  · exact apply_id change input row
  · rfl

theorem apply_token (rotates : change ≠ .rotate) : (change.apply input row).token = row.token := by
  cases change with
  | rotate => exact absurd rfl rotates
  | _ => rfl

theorem apply_active (active : (change.apply input row).active = true)
    (opens : change.opens = false) : row.active = true ∧ change.closes = false := by
  cases change with
  | rotate => exact ⟨active, rfl⟩
  | softDelete => simp [Change.apply, WebhookEndpointRecord.active] at active
  | update label enabled =>
      cases enabled with
      | none => exact ⟨active, rfl⟩
      | some enabled =>
          rw [Change.opens] at opens
          simp [Change.apply, WebhookEndpointRecord.active, opens] at active

theorem apply_closed (closes : change.closes = true) : (change.apply input row).active = false := by
  cases change with
  | rotate => cases closes
  | softDelete => simp [Change.apply, WebhookEndpointRecord.active]
  | update label enabled =>
      cases enabled with
      | none => cases closes
      | some enabled =>
          rw [Change.closes, Bool.not_eq_true'] at closes
          simp [Change.apply, WebhookEndpointRecord.active, closes]

/-- The token of the row that is written is not one of those drawn before, but for its own. -/
theorem apply_token_ne (fresh : change = .rotate → input.token ∉ drawn) {token : JsString}
    (isDrawn : token ∈ drawn) (differs : change ≠ .rotate → row.token ≠ token) :
    (change.apply input row).token ≠ token := by
  by_cases rotates : change = .rotate
  · have isToken : (change.apply input row).token = input.token := by rw [rotates]; rfl
    rw [isToken]
    rintro rfl
    exact fresh rotates isDrawn
  · rw [apply_token rotates]
    exact differs rotates

theorem follows_newest (member : row ∈ rows.rows) (sound : RowsSound log drawn rows)
    (fresh : change = .rotate → input.token ∉ drawn) (stamp : Nat) :
    Follows log { id, change, token := row.token, stamp } (change.apply input row) := by
  by_cases rotates : change = .rotate
  · rw [follows_rotate rotates]
    exact apply_token_ne fresh (sound.tokens row member) fun others => absurd rotates others
  · rw [follows_iff rotates]
    intro closes _ active
    rw [apply_closed closes] at active
    cases active

theorem follows_earlier (member : row ∈ rows.rows) (sound : RowsSound log drawn rows)
    (fresh : change = .rotate → input.token ∉ drawn) (isLogged : update ∈ log) :
    Follows ({ id := row.id, change, token := row.token, stamp := log.length + 1 } :: log) update
      (change.apply input row) := by
  have follows := sound.follows update isLogged row member
  obtain ⟨stamp, isDrawn⟩ := sound.logged update isLogged
  by_cases rotates : update.change = .rotate
  · rw [follows_rotate rotates] at follows ⊢
    exact apply_token_ne fresh isDrawn fun _ => follows
  · rw [follows_iff rotates] at follows ⊢
    intro closes same active
    rw [apply_id] at same
    cases opens : change.opens with
    | true => exact ⟨_, List.mem_cons_self, same, opens, Nat.lt_succ_of_le stamp⟩
    | false => exact (follows closes same (apply_active active opens).1).cons _

theorem RowsSound.write (sound : RowsSound log drawn rows) (found : findById rows id = some row)
    (fresh : change = .rotate → input.token ∉ drawn) :
    RowsSound ({ id, change, token := row.token, stamp := log.length + 1 } :: log)
      (if change = .rotate then input.token :: drawn else drawn)
      (updateMany rows id change input) := by
  obtain ⟨member, rfl⟩ := findById_some found
  have kept : ∀ token ∈ drawn,
      token ∈ if change = .rotate then input.token :: drawn else drawn := by
    intro token isDrawn
    split
    · exact List.mem_cons_of_mem _ isDrawn
    · exact isDrawn
  have others : ∀ other ∈ rows.rows, other.id ≠ row.id → row.token ≠ other.token := by
    intro other isOther differs same
    exact differs (congrArg (fun row => row.id) (sound.apart row member other isOther same)).symm
  have applied : ∀ other ∈ rows.rows, other.id ≠ row.id →
      (change.apply input row).token ≠ other.token := by
    intro other isOther differs
    exact apply_token_ne fresh (sound.tokens other isOther) fun _ => others other isOther differs
  constructor
  · intro changed isChanged
    rcases mem_updateMany found isChanged with rfl | ⟨isRow, _⟩
    · by_cases rotates : change = .rotate
      · rw [if_pos rotates, rotates]
        exact List.mem_cons_self
      · rw [apply_token rotates]
        exact kept _ (sound.tokens row member)
    · exact kept _ (sound.tokens changed isRow)
  · intro first isFirst second isSecond same
    rcases mem_updateMany found isFirst with rfl | ⟨isRow, differs⟩
    · rcases mem_updateMany found isSecond with rfl | ⟨isOther, differs⟩
      · rfl
      · exact absurd same (applied second isOther differs)
    · rcases mem_updateMany found isSecond with rfl | ⟨isOther, _⟩
      · exact absurd same.symm (applied first isRow differs)
      · exact sound.apart first isRow second isOther same
  · intro update isLogged changed isChanged
    rcases mem_updateMany found isChanged with rfl | ⟨isRow, differs⟩
    · rcases List.mem_cons.mp isLogged with rfl | before
      · exact (follows_newest member sound fresh _).cons _
      · exact follows_earlier member sound fresh before
    · rcases List.mem_cons.mp isLogged with rfl | before
      · by_cases rotates : change = .rotate
        · rw [follows_rotate rotates]
          exact (others changed isRow differs).symm
        · rw [follows_iff rotates]
          exact fun _ same => absurd same differs
      · exact (sound.follows update before changed isRow).cons _
  · intro update isLogged
    rcases List.mem_cons.mp isLogged with rfl | before
    · exact ⟨Nat.le_refl _, kept _ (sound.tokens row member)⟩
    · obtain ⟨stamp, isDrawn⟩ := sound.logged update before
      exact ⟨Nat.le_succ_of_le stamp, kept _ isDrawn⟩
  · intro update isLogged
    rcases List.mem_cons.mp isLogged with rfl | before
    · exact id_updateMany member
    · obtain ⟨known, isKnown, isUpdated⟩ := sound.present update before
      rw [← isUpdated]
      exact id_updateMany isKnown

theorem RowsSound.insert (sound : RowsSound log drawn rows) (fresh : row.token ∉ drawn)
    {inserted : Rows} (isInserted : rows.insert row = some inserted) :
    RowsSound log (row.token :: drawn) inserted := by
  obtain ⟨absent, isRows⟩ := Table.insert_eq_some_iff.mp isInserted
  have newRow : ∀ other ∈ rows.rows, other.id ≠ row.id := by
    intro other isOther same
    have isKey := Table.find_key isOther
    rw [same, absent] at isKey
    cases isKey
  have newToken : ∀ other ∈ rows.rows, other.token ≠ row.token := by
    intro other isOther same
    rw [← same] at fresh
    exact fresh (sound.tokens other isOther)
  have before_or_new : ∀ other ∈ inserted.rows, other ∈ rows.rows ∨ other = row := by
    intro other isOther
    rw [isRows] at isOther
    rcases List.mem_append.mp isOther with before | isNew
    · exact .inl before
    · exact .inr (List.mem_singleton.mp isNew)
  constructor
  · intro other isOther
    rcases before_or_new other isOther with before | rfl
    · exact List.mem_cons_of_mem _ (sound.tokens other before)
    · exact List.mem_cons_self
  · intro first isFirst second isSecond same
    rcases before_or_new first isFirst with before | rfl
    · rcases before_or_new second isSecond with earlier | rfl
      · exact sound.apart first before second earlier same
      · exact absurd same (newToken first before)
    · rcases before_or_new second isSecond with earlier | rfl
      · exact absurd same.symm (newToken second earlier)
      · rfl
  · intro update isLogged other isOther
    rcases before_or_new other isOther with before | rfl
    · exact sound.follows update isLogged other before
    · by_cases rotates : update.change = .rotate
      · rw [follows_rotate rotates]
        intro same
        rw [same] at fresh
        exact fresh (sound.logged update isLogged).2
      · rw [follows_iff rotates]
        intro _ same
        obtain ⟨known, isKnown, isUpdated⟩ := sound.present update isLogged
        exact absurd (isUpdated.trans same.symm) (newRow known isKnown)
  · intro update isLogged
    obtain ⟨stamp, isDrawn⟩ := sound.logged update isLogged
    exact ⟨stamp, List.mem_cons_of_mem _ isDrawn⟩
  · intro update isLogged
    obtain ⟨known, isKnown, isUpdated⟩ := sound.present update isLogged
    refine ⟨known, ?_, isUpdated⟩
    rw [isRows]
    exact List.mem_append_left _ isKnown

end Rows

end WebhookEndpoints
