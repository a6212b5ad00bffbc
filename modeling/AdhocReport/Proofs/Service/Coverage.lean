import AdhocReport.DerivedField.Catalog
import AdhocReport.Service.Request
import AdhocReport.Proofs.DerivedField.Reconciliation
import AdhocReport.Proofs.Outcome
set_option autoImplicit false

/-!
# The service: coverage of held fields

Two endpoints tell a client which of the pairs of a field are joined: the analysis of joins and the
re-check of fields.  The analysis resolves the models of a field only where neither models nor pairs are
stored with it, the re-check always does; where pairs are stored, coverage does not ask for the models.
-/

namespace AdhocReport.Service

open AdhocReport.DerivedField

/-! ## One field -/

section

variable (f : DerivedField) (selected keys : List String)

theorem effectiveModels_of_stored {f : DerivedField} (h : f.referencedModels ≠ []) :
    f.effectiveModels = f.referencedModels :=
  if_neg (mt List.isEmpty_iff.mp h)

/-- Where pairs are stored, the models say nothing. -/
theorem coverage_of_stored {stored : List (String × String)} (h : stored ≠ []) (models models' : List String) :
    Join.coverage stored models keys = Join.coverage stored models' keys := by
  have hneeded (ms : List String) : Join.neededPairs stored ms = stored := if_neg (mt List.isEmpty_iff.mp h)
  simp only [Join.coverage, hneeded]

/-- The coverage of a field asks for the models that it depends on. -/
theorem heldCoverage_eq : heldCoverage f keys = Join.coverage f.joinDependencies f.effectiveModels keys := by
  unfold heldCoverage
  by_cases hmodels : f.referencedModels = []
  · by_cases hpairs : f.joinDependencies = []
    · rw [hmodels, hpairs]
      rfl
    · exact coverage_of_stored keys hpairs _ _
  · have hresolved : (f.referencedModels.isEmpty && f.joinDependencies.isEmpty) = false := by
      rw [Bool.and_eq_false_iff, List.isEmpty_eq_false_iff]
      exact .inl hmodels
    rw [hresolved, effectiveModels_of_stored hmodels]
    rfl

theorem effectiveModels_reconciled : (f.reconciled selected).effectiveModels = f.effectiveModels := by
  rw [reconciled_eq]
  rfl

theorem verdict_coverage : (verdict f selected keys).coverage = heldCoverage f keys := by
  have hpairs : (f.reconciled selected).joinDependencies = f.joinDependencies := by rw [reconciled_eq]
  rw [heldCoverage_eq, verdict, hpairs, effectiveModels_reconciled]

theorem verdict_status_eq_stale_iff :
    (verdict f selected keys).status = .stale ↔
      ∃ m ∈ (verdict f selected keys).referencedModels, m ∉ selected := by
  have hstale := isStale_reconciled f selected
  rw [isStale, beq_iff_eq] at hstale
  rw [verdict, hstale, effectiveModels_reconciled]

end

/-! ## The two endpoints -/

/-- What the two endpoints say of one held field: the entry of the analysis of joins and the verdict of
the re-check name it and show the same coverage, and the status is stale exactly when a model that the
verdict shows is not selected. -/
structure Concur (selected : List String) (h : Held) (entry : Json) (v : Verdict) : Prop where
  entry_id : entry.get? "id" = some (.str h.id)
  verdict_id : v.id = h.id
  coverage : entry.get? "coverage" = some (.arr (v.coverage.map Join.Coverage.toJson))
  written : v.toJson.get? "coverage" = entry.get? "coverage"
  status : v.status = .stale ↔ ∃ m ∈ v.referencedModels, m ∉ selected

/-- The entry that the analysis of joins gives a held field. -/
def coverageEntry (keys : List String) (h : Held) : Json :=
  .obj [("id", .str h.id), ("coverage", .arr ((heldCoverage h.toField keys).map Join.Coverage.toJson)),
    ("satisfied", .bool ((heldCoverage h.toField keys).all (·.satisfied)))]

theorem answer_coverage (r : JoinAnalysis) :
    r.answer.get? "coverage" =
      some (.arr (r.fields.map (coverageEntry (Join.pairKeys (r.joins.map Join.Condition.models))))) := by
  rfl

theorem concur_held (selected keys : List String) (h : Held) :
    Concur selected h (coverageEntry keys h) (verdict h.toField selected keys) := by
  have hid : (verdict h.toField selected keys).id = h.id := by
    rw [verdict, reconciled_eq]
    rfl
  have hcoverage : (coverageEntry keys h).get? "coverage" =
      some (.arr ((verdict h.toField selected keys).coverage.map Join.Coverage.toJson)) := by
    rw [verdict_coverage]
    rfl
  exact ⟨rfl, hid, hcoverage, hcoverage.symm, verdict_status_eq_stale_iff h.toField selected keys⟩

section

variable (c : Catalog) (r : Recheck)

/-- The verdicts on the fields that the client sends with a re-check. -/
def heldVerdicts : List Verdict :=
  r.fields.map fun h => verdict h.toField r.models (Join.pairKeys (r.joins.map Join.Condition.models))

/-- The verdicts on saved fields come behind those on the fields that the client holds. -/
theorem heldVerdicts_prefix {verdicts : List Verdict} (h : c.recheck r = .ok verdicts) :
    heldVerdicts r <+: verdicts := by
  simp only [Catalog.recheck] at h
  have hsaved : ∃ saved : List Verdict, verdicts = heldVerdicts r ++ saved := by
    split at h
    all_goals
      obtain ⟨saved, -, hverdicts⟩ := Outcome.bind_eq_ok.mp h
      rw [← Except.ok.inj hverdicts, List.map_append, List.map_map]
      exact ⟨_, rfl⟩
  obtain ⟨saved, rfl⟩ := hsaved
  exact List.prefix_append _ _

/-- A re-check that asks for no saved fields gives one verdict for each held field. -/
theorem recheck_held (hids : r.fieldIds.getD [] = []) (htemplate : r.templateId.getD "" = "") :
    c.recheck r = .ok (heldVerdicts r) := by
  simp only [Catalog.recheck, hids, htemplate, List.isEmpty_nil, beq_self_eq_true, Bool.and_self, if_true,
    Outcome.bind_ok, List.filter_nil, List.append_nil, List.map_map]
  rfl

end

/-- The analysis of joins and the re-check of the same held fields, models and joins agree on every field:
each endpoint gives one answer for each field, in the order of the fields, ahead of what a re-check adds
for saved fields. -/
theorem analysis_agrees_with_recheck (c : Catalog) (r : Recheck) :
    ∃ (entry : Held → Json) (judged : Held → Verdict),
      (JoinAnalysis.mk r.models r.joins r.fields).answer.get? "coverage" = some (.arr (r.fields.map entry)) ∧
      (r.fieldIds.getD [] = [] → r.templateId.getD "" = "" → c.recheck r = .ok (r.fields.map judged)) ∧
      (∀ verdicts, c.recheck r = .ok verdicts → r.fields.map judged <+: verdicts) ∧
      ∀ h ∈ r.fields, Concur r.models h (entry h) (judged h) :=
  ⟨_, _, answer_coverage _, recheck_held c r, fun _ => heldVerdicts_prefix c r, fun h _ => concur_held r.models _ h⟩

end AdhocReport.Service
