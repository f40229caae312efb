import Ledger.Core.Journal

namespace Ledger.Core

open Shared

inductive HolderRole where
  | user | system
  | unknown (text : GoString)
deriving DecidableEq

def HolderRole.isValid : HolderRole → Bool
  | .unknown _ => false
  | _ => true

structure EntryTemplateLine where
  classificationUID : GoString
  entryType : EntryType
  holderRole : HolderRole
  amountKey : GoString
deriving DecidableEq

structure EntryTemplate where
  code : GoString
  name : GoString
  journalTypeUID : GoString
  isActive : Bool
  lines : List EntryTemplateLine
deriving DecidableEq

structure TemplateParams where
  holderID : Int
  currencyUID : GoString
  idempotencyKey : GoString
  eventUID : GoString
  amounts : GoString → Option Decimal
  actorID : Int
  source : GoString
  metadata : Metadata
  effectiveAt : Instant

def validateTemplateLine (line : EntryTemplateLine) : Result Unit := do
  require (line.classificationUID ≠ [])
    ⟨.invalidInput, "core: template: line[%d]: classification_uid required"⟩
  require line.entryType.isValid ⟨.invalidInput, "core: template: line[%d]: invalid entry type %q"⟩
  require line.holderRole.isValid
    ⟨.invalidInput, "core: template: line[%d]: invalid holder role %q"⟩
  require (line.amountKey ≠ []) ⟨.invalidInput, "core: template: line[%d]: amount_key required"⟩

def EntryTemplate.validateDefinition (t : EntryTemplate) : Result Unit := do
  require (t.code ≠ []) ⟨.invalidInput, "core: template: code required"⟩
  require (t.name ≠ []) ⟨.invalidInput, "core: template: name required"⟩
  require (t.journalTypeUID ≠ []) ⟨.invalidInput, "core: template: journal_type_uid required"⟩
  require (t.lines ≠ []) ⟨.invalidInput, "core: template: lines must not be empty"⟩
  checkAll validateTemplateLine t.lines

def HolderRole.holder (role : HolderRole) (holderID : Int) : Result Int :=
  match role with
  | .user => .ok holderID
  | .system => .ok (systemAccountHolder holderID)
  | .unknown _ => .error ⟨.invalidInput, "core: template: line[%d]: invalid holder role %q"⟩

def renderLine (params : TemplateParams) (line : EntryTemplateLine) : Result EntryInput := do
  let amount ← orError (params.amounts line.amountKey)
    ⟨.invalidInput, "core: template: line[%d]: missing amount key %q"⟩
  let holder ← line.holderRole.holder params.holderID
  return ⟨holder, params.currencyUID, line.classificationUID, line.entryType, amount⟩

def EntryTemplate.render (decodeQuotes : GoString → Result Unit) (now : Instant) (t : EntryTemplate)
    (params : TemplateParams) :
    Result JournalInput := do
  require t.isActive ⟨.invalidInput, "core: template: %q is inactive"⟩
  t.validateDefinition
  -- A system line posts to the negated id, so a negative one would swap the two namespaces.
  require (0 < params.holderID)
    ⟨.invalidInput, "core: template: holder_id must be positive (user-side), got %d"⟩
  let entries ← collect (renderLine params) t.lines
  let input : JournalInput :=
    { journalTypeUID := t.journalTypeUID
      idempotencyKey := params.idempotencyKey
      entries := entries
      metadata := params.metadata
      actorID := params.actorID
      source := params.source
      reversalOfUID := []
      eventUID := params.eventUID
      effectiveAt := params.effectiveAt }
  input.validate decodeQuotes now
  return input

structure Rendered (t : EntryTemplate) (params : TemplateParams) (input : JournalInput) : Prop where
  holder : 0 < params.holderID
  entries : List.Forall₂ (fun line e => renderLine params line = .ok e) t.lines input.entries
  key : input.idempotencyKey = params.idempotencyKey
  event : input.eventUID = params.eventUID
  reversal : input.reversalOfUID = []

theorem render_ok {decodeQuotes : GoString → Result Unit} {now : Instant} {t : EntryTemplate}
    {params : TemplateParams}
    {input : JournalInput} (ok : t.render decodeQuotes now params = .ok input) :
    Rendered t params input ∧ input.validate decodeQuotes now = .ok () := by
  simp only [EntryTemplate.render, bind_eq_ok, pure_eq_ok, require_eq_ok, decide_eq_true_eq,
    collect_eq_ok] at ok
  obtain ⟨_, -, _, -, _, holder, entries, rendered, _, valid, rfl⟩ := ok
  exact ⟨⟨holder, rendered, rfl, rfl, rfl⟩, valid⟩

end Ledger.Core
