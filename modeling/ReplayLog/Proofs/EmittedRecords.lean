import ReplayLog.Proofs.SettledOutcomes
import ReplayLog.Proofs.StoredRecords

/-! # Emitted records

Every dialect puts its statements through its own rules, some of them before the other parts of an
entry are read and some behind them. Either way no record is emitted that a rule is against, so what
the rules ask for holds of every record that a run writes. -/
namespace ReplayLog

namespace Extract

def EmitsOnly (kept : Record → Prop) (x : Extract Outcome) : Prop :=
  ∀ r, x = .ok (.emit r) → kept r

namespace EmitsOnly

variable {kept : Record → Prop}

/-- What is read first cannot emit a record. -/
theorem bind {α : Type} {x : Extract α} {f : α → Extract Outcome} (h : ∀ a, EmitsOnly kept (f a)) :
    EmitsOnly kept (x >>= f) := by
  intro r hr
  cases x with
  | error halt => cases hr
  | ok a => exact h a r hr

theorem ignore (reason : Rejection) : EmitsOnly kept (pure (.ignore reason)) := nofun

theorem empty : EmitsOnly kept (pure .empty) := nofun

theorem emit {r : Record} (h : kept r) : EmitsOnly kept (pure (.emit r)) := by
  intro r' hr
  cases hr
  exact h

end EmitsOnly
end Extract

def Record.Passes (rules : List RejectionRule) (r : Record) : Prop :=
  firstRejection rules r.statement r.parameter = none

namespace Record.Passes

variable {rules : List RejectionRule} {r : Record}

theorem not_blank (h : r.Passes rules) : r.statement.isBlankText = false :=
  (firstRejection_none_iff.1 h).1

theorem not_suffix (h : r.Passes rules) {ending : Text} (hrule : .truncated ending ∈ rules) :
    ¬ending <:+ r.statement := by
  intro hsuffix
  have hcheck := (firstRejection_none_iff.1 h).2 _ hrule
  rw [RejectionRule.check, Text.endsWith, if_pos (List.isSuffixOf_iff_suffix.2 hsuffix)] at hcheck
  cases hcheck

theorem not_prefix (h : r.Passes rules) {opening : Text} (hrule : .administrative opening ∈ rules) :
    ¬opening <+: r.statement := by
  intro hfront
  have hcheck := (firstRejection_none_iff.1 h).2 _ hrule
  rw [RejectionRule.check, if_pos (List.isPrefixOf_iff_prefix.2 hfront)] at hcheck
  cases hcheck

theorem exists_parameter (h : r.Passes rules) {placeholder : Char}
    (hrule : .unbound placeholder ∈ rules) (hmem : placeholder ∈ r.statement) :
    ∃ q, r.parameter = some q ∧ q ≠ [] := by
  have hcheck := (firstRejection_none_iff.1 h).2 _ hrule
  rw [RejectionRule.check, List.contains_iff_mem.2 hmem, Bool.true_and] at hcheck
  rcases hparameter : r.parameter with _ | (_ | ⟨c, q⟩)
  · rw [hparameter] at hcheck
    cases hcheck
  · rw [hparameter] at hcheck
    cases hcheck
  · exact ⟨c :: q, rfl, List.cons_ne_nil _ _⟩

end Record.Passes

def Dialect.rules : Dialect → List RejectionRule
  | accessLog => AccessLog.rules
  | nodeLog => NodeLog.rules
  | sqlAudit => SqlAudit.rules
  | serviceAudit => ServiceAudit.rules
  | serviceExport => ServiceAudit.rules

section Dialects

open Extract

theorem AccessLog.emitsOnly_convert (zone : Zone) (schema entry : Text) :
    EmitsOnly (Record.Passes rules) (convert zone schema entry) := by
  refine .bind fun header => .bind fun startTime => .bind fun statement => .bind fun execTime => ?_
  split
  · exact .ignore _
  · next hnone => exact .emit hnone

theorem NodeLog.emitsOnly_convert (zone : Zone) (entry : Text) :
    EmitsOnly (Record.Passes rules) (convert zone entry) := by
  refine .bind fun header => .bind fun startTime => .bind fun client =>
    .bind fun (statement, tail) => .bind fun (parameters, metrics) => .bind fun execTime => ?_
  dsimp only
  split
  · exact .ignore _
  · next hnone => exact .emit hnone

/-- An event without members emits nothing. -/
theorem AuditEvent.emitsOnly_ofMembers {kept : Record → Prop}
    {convert : Json.Members → Extract Outcome} (h : ∀ members, EmitsOnly kept (convert members))
    (event : Json) : EmitsOnly kept (ofMembers convert event) := by
  refine .bind fun members? => ?_
  cases members? with
  | none => exact .empty
  | some members => exact h members

theorem SqlAudit.emitsOnly_convert (zone : Zone) (event : Json) :
    EmitsOnly (Record.Passes rules) (convert zone event) := by
  refine AuditEvent.emitsOnly_ofMembers (fun members => ?_) event
  refine .bind fun statement => .bind fun parameter => ?_
  split
  · exact .ignore _
  · next hnone =>
    exact .bind fun stamp => .bind fun startTime => .bind fun host => .bind fun socket =>
      .bind fun time => .bind fun execTime => .bind fun schema => .emit hnone

theorem ServiceAudit.emitsOnly_convert (event : Json) :
    EmitsOnly (Record.Passes rules) (convert event) := by
  refine AuditEvent.emitsOnly_ofMembers (fun members => ?_) event
  refine .bind fun statement => ?_
  split
  · exact .ignore _
  · next hnone =>
    exact .bind fun startTime => .bind fun session => .bind fun execTime => .bind fun schema =>
      .bind fun user => .emit hnone

theorem ServiceExport.emitsOnly_convert (zone : Zone) (row : Row) :
    EmitsOnly (Record.Passes ServiceAudit.rules) (convert zone row) := by
  refine .bind fun statement => ?_
  split
  · exact .ignore _
  · next hnone =>
    exact .bind fun stamp => .bind fun startTime => .bind fun session => .bind fun cost =>
      .bind fun execTime => .bind fun schema => .bind fun user => .emit hnone

/-- The lines of an event log are read first. -/
theorem Converter.emitsOnly_ofEvents {kept : Record → Prop} {l : Layout}
    {convert : Json → Extract Outcome} (h : ∀ event, EmitsOnly kept (convert event)) (line : Text) :
    EmitsOnly kept ((Converter.ofEvents l convert).convert line) :=
  .bind h

theorem Account.of_mem_records {α : Type} {c : Converter α} {feed : Feed α} {kept : Record → Prop}
    (h : ∀ a, EmitsOnly kept (c.convert a)) : ∀ r ∈ (ofFeed c feed).records, kept r := by
  intro r hr
  obtain ⟨v, hv, houtcome⟩ := Account.exists_of_mem_records hr
  obtain ⟨a, -, rfl⟩ := List.mem_map.1 hv
  exact h a.entry r houtcome

end Dialects

namespace Settings

/-- No record of a source breaks a rule of its dialect. -/
theorem passes_of_mem_records (s : Settings) (b : BufferedSource) :
    ∀ r ∈ (s.account b).records, r.Passes s.dialect.rules := by
  rw [account]
  cases s.dialect with
  | accessLog => exact Account.of_mem_records (AccessLog.emitsOnly_convert _ _)
  | nodeLog => exact Account.of_mem_records (NodeLog.emitsOnly_convert _)
  | sqlAudit =>
    exact Account.of_mem_records (Converter.emitsOnly_ofEvents (SqlAudit.emitsOnly_convert _))
  | serviceAudit =>
    exact Account.of_mem_records (Converter.emitsOnly_ofEvents ServiceAudit.emitsOnly_convert)
  | serviceExport => exact Account.of_mem_records (ServiceExport.emitsOnly_convert _)

/-- Whatever a sink refuses, the records that a run writes are records of its source. Their
statements are not blank; the database logs write none that was cut short, and none with a question
mark goes without parameters; neither the access log nor the database service writes an
administrative statement of its own. -/
theorem run_writes_kept_records (s : Settings) (b : BufferedSource) (w : Writer) :
    ∃ records, records <+: (s.account b).records ∧
      (s.run b w).2.writer.sink.lines.toList =
        w.sink.lines.toList ++ records.map s.dialect.layout.line ∧
      ∀ r ∈ records, r.statement.isBlankText = false ∧
        (s.dialect = .accessLog ∨ s.dialect = .nodeLog ∨ s.dialect = .sqlAudit →
          ¬" more".toList <:+ r.statement) ∧
        (s.dialect = .accessLog → ¬"SYNC".toList <+: r.statement) ∧
        (s.dialect = .serviceAudit ∨ s.dialect = .serviceExport →
          ¬"log".toList <+: r.statement) ∧
        (s.dialect = .nodeLog ∨ s.dialect = .sqlAudit → '?' ∈ r.statement →
          ∃ q, r.parameter = some q ∧ q ≠ []) := by
  obtain ⟨records, hfront, hlines⟩ := s.run_stores b w
  refine ⟨records, hfront, hlines, ?_⟩
  intro r hr
  have hpasses := s.passes_of_mem_records b r (hfront.subset hr)
  refine ⟨hpasses.not_blank, ?_, ?_, ?_, ?_⟩
  · rintro (hs | hs | hs) <;> rw [hs] at hpasses
    · exact hpasses.not_suffix List.mem_cons_self
    · exact hpasses.not_suffix (List.mem_cons_of_mem _ List.mem_cons_self)
    · exact hpasses.not_suffix List.mem_cons_self
  · intro hs
    rw [hs] at hpasses
    exact hpasses.not_prefix (List.mem_cons_of_mem _ List.mem_cons_self)
  · rintro (hs | hs) <;> rw [hs] at hpasses <;> exact hpasses.not_prefix List.mem_cons_self
  · rintro (hs | hs) <;> rw [hs] at hpasses
    · exact hpasses.exists_parameter List.mem_cons_self
    · exact hpasses.exists_parameter (List.mem_cons_of_mem _ List.mem_cons_self)

/-- An event of the database service whose statement ends as if it had been cut short. -/
def cutShortEvent : BufferedSource :=
  .ofSource 256 (.ofReads [Text.toUtf8 ("\x7b\"sql\":\"select 1 more\",\"origin_time\":\"1\"," ++
    "\"thread_id\":\"7\",\"latency\":\"3\",\"db\":\"d\",\"user\":\"u\"\x7d\n").toList] none)

/-- No ending is held against the statements of the database service. -/
theorem run_writes_cutShortEvent :
    let s : Settings := { dialect := .serviceAudit, zone := .fixed 0 }
    (s.run cutShortEvent ⟨{}, 1, 0⟩).2.writer.sink.lines.toList =
      (s.account cutShortEvent).records.map s.dialect.layout.line ∧
    (s.account cutShortEvent).records ≠ [] ∧
    ∀ r ∈ (s.account cutShortEvent).records, " more".toList <:+ r.statement := by
  decide +kernel

end Settings
end ReplayLog
