import ArmstrongBot.Audit.CanonicalJson
import ArmstrongBot.Library.Calendar

/-! The audit records of `domain/audit-entry.model.ts` and `domain/audit-scope.enum.ts`. -/

namespace Audit

open JsText JsJson
open Calendar (Timestamp)

inductive AuditScope
  | guild
  | global
  deriving DecidableEq

inductive AuditSource
  | command
  | dashboard
  | api
  | job
  | system
  | event
  deriving DecidableEq

inductive AuditActorType
  | user
  | system
  | bot
  deriving DecidableEq

def AuditScope.text : AuditScope → JsString
  | .guild => js "GUILD"
  | .global => js "GLOBAL"

def AuditSource.text : AuditSource → JsString
  | .command => js "COMMAND"
  | .dashboard => js "DASHBOARD"
  | .api => js "API"
  | .job => js "JOB"
  | .system => js "SYSTEM"
  | .event => js "EVENT"

def AuditActorType.text : AuditActorType → JsString
  | .user => js "USER"
  | .system => js "SYSTEM"
  | .bot => js "BOT"

/-- `Record<string, unknown>` as a JSON column or a job's data holds it. -/
structure Record where
  fields : Fields
  formed : wellFormed (.obj fields) = true
  deriving DecidableEq

def Record.json (record : Record) : Json := .obj record.fields

def Record.empty : Record := ⟨[], rfl⟩

theorem Record.json_formed (record : Record) : wellFormed record.json = true := record.formed

structure AuditEntryDraft where
  scope : AuditScope
  guildId : Option JsString
  action : JsString
  source : AuditSource
  actorId : Option JsString
  actorType : AuditActorType
  targetType : Option JsString
  targetId : Option JsString
  channelId : Option JsString
  correlationId : JsString
  causationId : Option JsString
  summary : JsString
  metadata : Record
  before : Option Record
  after : Option Record
  occurredAt : Timestamp
  deriving DecidableEq

structure AuditEntry extends AuditEntryDraft where
  id : JsString
  seq : Int
  previousHash : Option JsString
  hash : JsString
  createdAt : Timestamp
  deriving DecidableEq

abbrev ChainKey := AuditScope × Option JsString

def AuditEntryDraft.chain (draft : AuditEntryDraft) : ChainKey := (draft.scope, draft.guildId)

end Audit
