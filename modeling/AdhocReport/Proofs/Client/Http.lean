import AdhocReport.Client.Http
import AdhocReport.Proofs.Outcome
import AdhocReport.Proofs.Query.Response
set_option autoImplicit false

/-!
# The client: what an answer over HTTP means

Whatever comes back over HTTP ends an operation of the client with a value that was checked or with an
error of the transport, which carries the status if that is an error status.  There is one exception: an
error status with a body that is JSON, but no object.  The detail of the error is looked for among the
members of the body, and such a body has none.
-/

namespace AdhocReport

open Query

/-! ## What is checked -/

/-- A record that was checked has known members only. -/
theorem Check.known_of_record {α : Type} {title : String} {known : List String}
    {build : Check.Members → Check.Checked α} {ms : Check.Members} {a : α}
    (h : Check.record title known build (.obj ms) = .valid a) : ∀ m ∈ ms, m.1 ∈ known := by
  rw [Check.record, Check.Checked.withIssues.eq_def] at h
  split at h
  · rename_i hextra
    rw [List.isEmpty_iff, Check.extraIssues, List.map_eq_nil_iff, List.filter_eq_nil_iff] at hextra
    intro m hm
    simpa using hextra m hm
  · split at h <;> cases h

namespace Query

theorem wellFormed_eq_ok {α : Type} {what title : String} {x : Check.Checked α} {a : α} :
    wellFormed what title x = .ok a ↔ x = .valid a := by
  cases x <;> simp [wellFormed]

theorem map_wellFormed_eq_ok {α : Type} {what title : String} {x : Check.Checked α} {form : α → Response}
    {r : Response} : (wellFormed what title x).map form = .ok r ↔ ∃ a, x = .valid a ∧ form a = r := by
  cases x <;> simp [wellFormed, Except.map]

namespace Response

/-- The check of the form that a response has accepts the JSON value. -/
def Checks (j : Json) : Response → Prop
  | .result r => ImmediateResult.reader j = .valid r
  | .job d => JobDescriptor.reader j = .valid d

theorem columns_of_result {ms : Check.Members} {r : ImmediateResult}
    (h : ImmediateResult.reader (.obj ms) = .valid r) : (Json.lookup ms "columns").isSome = true := by
  obtain ⟨_, hms, hbuild⟩ := Check.record_eq_valid h
  cases hms
  obtain ⟨_, _, hrest, -, -⟩ := Check.Checked.seq_eq_valid.mp hbuild
  obtain ⟨_, _, hrest, -, -⟩ := Check.Checked.seq_eq_valid.mp hrest
  obtain ⟨_, _, hrest, -, -⟩ := Check.Checked.seq_eq_valid.mp hrest
  obtain ⟨_, hcolumns, -⟩ := Check.Checked.map_eq_valid.mp hrest
  obtain ⟨j, hfound, -⟩ := Check.required_eq_valid hcolumns
  rw [hfound]
  rfl

/-- A descriptor has an id, and its members leave no room for columns. -/
theorem members_of_job {ms : Check.Members} {d : JobDescriptor} (h : JobDescriptor.reader (.obj ms) = .valid d) :
    (Json.lookup ms "columns").isSome = false ∧ (Json.lookup ms "job_id").isSome = true := by
  constructor
  · rw [Option.isSome_eq_false_iff, Option.isNone_iff_eq_none, Json.lookup, Option.map_eq_none_iff,
      List.find?_eq_none]
    intro m hm hcolumns
    have hknown := Check.known_of_record h m hm
    rw [eq_of_beq hcolumns] at hknown
    exact absurd hknown (by decide)
  · obtain ⟨_, hms, hbuild⟩ := Check.record_eq_valid h
    cases hms
    obtain ⟨_, _, hrest, -, -⟩ := Check.Checked.seq_eq_valid.mp hbuild
    obtain ⟨_, _, hrest, -, -⟩ := Check.Checked.seq_eq_valid.mp hrest
    obtain ⟨_, _, hrest, -, -⟩ := Check.Checked.seq_eq_valid.mp hrest
    obtain ⟨_, hid, -⟩ := Check.Checked.map_eq_valid.mp hrest
    obtain ⟨j, hfound, -⟩ := Check.required_eq_valid hid
    rw [hfound]
    rfl

/-- A JSON value is read as a response exactly when the check of its form accepts it. -/
theorem ofJson_eq_ok_iff {j : Json} {r : Response} : ofJson j = .ok r ↔ Checks j r := by
  constructor
  · intro h
    unfold ofJson at h
    split at h
    · split at h
      · obtain ⟨a, ha, rfl⟩ := map_wellFormed_eq_ok.mp h
        exact ha
      · split at h
        · obtain ⟨a, ha, rfl⟩ := map_wellFormed_eq_ok.mp h
          exact ha
        · cases h
    · cases h
  · intro h
    cases r with
    | result r =>
      obtain ⟨ms, rfl, -⟩ := Check.record_eq_valid h
      rw [ofJson, if_pos (columns_of_result h)]
      exact map_wellFormed_eq_ok.mpr ⟨r, h, rfl⟩
    | job d =>
      obtain ⟨ms, rfl, -⟩ := Check.record_eq_valid h
      obtain ⟨hcolumns, hid⟩ := members_of_job h
      rw [ofJson, if_neg (by rw [hcolumns]; decide), if_pos hid]
      exact map_wellFormed_eq_ok.mpr ⟨d, h, rfl⟩

end Response

end Query

/-! ## What an answer carries -/

namespace Client

/-- The body of an answer without an error status is this JSON value. -/
inductive HttpAnswer.Carries (j : Json) : HttpAnswer → Prop
  | body {status : Int} {body : String} : status < 400 → Json.read? body = some j →
      Carries j (.answered status body)

/-- The answer has an error status, and a body that is JSON, but no object. -/
inductive HttpAnswer.Undetailed : HttpAnswer → Prop
  | body {status : Int} {body : String} {j : Json} : 400 ≤ status → Json.read? body = some j →
      (∀ ms, j ≠ .obj ms) → Undetailed (.answered status body)

theorem HttpAnswer.Carries.not_undetailed {j : Json} {a : HttpAnswer} (h : a.Carries j) : ¬ a.Undetailed := by
  rintro ⟨herror, -, -⟩
  cases h with
  | body hgood _ => exact absurd herror (Int.not_le.mpr hgood)

theorem HttpAnswer.Carries.unique {j j' : Json} {a : HttpAnswer} (h : a.Carries j) (h' : a.Carries j') : j = j' := by
  cases h with
  | body _ hread =>
    cases h' with
    | body _ hread' => exact Option.some.inj (hread.symm.trans hread')

namespace HttpCall

/-- How the JSON value of an answer is come by. -/
inductive ValueOf (a : HttpAnswer) : Except Failure Json → Prop
  | carried {j : Json} : a.Carries j → ValueOf a (.ok j)
  | undetailed : a.Undetailed → ValueOf a (.error .noMembers)
  | failed (message : String) {status : Option Int} : ¬ a.Undetailed → (∀ j, ¬ a.Carries j) →
      (∀ s body, a = .answered s body → 400 ≤ s → status = some s) →
      ValueOf a (.error (.report (.transport message status)))

/-- A body has a detail unless it is JSON, but no object. -/
theorem errorDetail_cases (body : String) :
    (∃ detail, errorDetail body = .ok detail ∧ ∀ j, Json.read? body = some j → ∃ ms, j = .obj ms) ∨
      (errorDetail body = .error .noMembers ∧ ∃ j, Json.read? body = some j ∧ ∀ ms, j ≠ .obj ms) := by
  unfold errorDetail
  split
  · rename_i hread
    exact .inl ⟨_, rfl, fun j hj => absurd (hread.symm.trans hj) nofun⟩
  · rename_i ms hread
    exact .inl ⟨_, rfl, fun j hj => ⟨ms, (Option.some.inj (hread.symm.trans hj)).symm⟩⟩
  · rename_i j hobj hread
    exact .inr ⟨rfl, j, hread, fun ms heq => hobj ms (heq ▸ rfl)⟩

theorem valueOf_value (c : HttpCall) (a : HttpAnswer) : ValueOf a (c.value a) := by
  cases a with
  | unreachable message => exact .failed message nofun nofun nofun
  | answered status body =>
    by_cases herror : 400 ≤ status
    · have hcarries (j : Json) : ¬ HttpAnswer.Carries j (.answered status body) := by
        rintro ⟨hgood, -⟩
        exact absurd herror (Int.not_le.mpr hgood)
      rcases errorDetail_cases body with ⟨detail, hdetail, hmembers⟩ | ⟨hdetail, j, hread, hmembers⟩
      · rw [value, if_pos herror, hdetail]
        refine .failed _ ?_ hcarries ?_
        · rintro ⟨-, hread, hnone⟩
          obtain ⟨ms, rfl⟩ := hmembers _ hread
          exact hnone ms rfl
        · rintro _ _ heq -
          cases heq
          rfl
      · rw [value, if_pos herror, hdetail]
        exact .undetailed (.body herror hread hmembers)
    · rw [value, if_neg herror]
      cases hread : Json.read? body with
      | some j => exact .carried (.body (Int.not_le.mp herror) hread)
      | none =>
        refine .failed _ ?_ ?_ ?_
        · rintro ⟨herror', -⟩
          exact herror herror'
        · rintro j ⟨-, hread'⟩
          exact absurd (hread.symm.trans hread') nofun
        · rintro _ _ heq herror'
          cases heq
          exact absurd herror' herror

end HttpCall

/-- What an answer means for an operation that accepts some JSON values and makes values of them. -/
structure Settles {α : Type} (accepts : Json → α → Prop) (a : HttpAnswer) (outcome : Except Failure α) :
    Prop where
  /-- The operation gives a value exactly when the answer carries JSON that it accepts. -/
  value : ∀ v, outcome = .ok v ↔ ∃ j, a.Carries j ∧ accepts j v
  /-- Without a value there is an error of the transport. -/
  failure : ¬ a.Undetailed →
    (∃ v, outcome = .ok v) ∨ ∃ message status, outcome = .error (.report (.transport message status))
  /-- An error status is carried by the error. -/
  status : ∀ status body, a = .answered status body → 400 ≤ status → ¬ a.Undetailed →
    ∃ message, outcome = .error (.report (.transport message (some status)))
  /-- The exception. -/
  undetailed : a.Undetailed → outcome = .error .noMembers

/-- An operation hands the value of an answer to a check, and an error of the check to the client. -/
theorem settles_of_check {α : Type} {accepts : Json → α → Prop} {check : Json → Except ReportError α}
    (haccepts : ∀ j v, check j = .ok v ↔ accepts j v)
    (hcheck : ∀ j, (∃ v, check j = .ok v) ∨ ∃ message, check j = .error (.transport message none))
    (c : HttpCall) (a : HttpAnswer) :
    Settles accepts a (c.value a >>= fun j => (check j).mapError .report) := by
  have hvalue := c.valueOf_value a
  generalize c.value a = value at hvalue
  cases hvalue with
  | @carried j hj =>
    rw [Outcome.bind_ok]
    refine ⟨fun v => ?_, fun _ => ?_, fun status body heq herror _ => ?_, fun h => absurd h hj.not_undetailed⟩
    · rw [Outcome.mapError_eq_ok, haccepts]
      constructor
      · intro h
        exact ⟨j, hj, h⟩
      · rintro ⟨j', hj', h⟩
        rwa [hj.unique hj']
    · rcases hcheck j with ⟨v, hv⟩ | ⟨message, hv⟩ <;> rw [hv]
      · exact .inl ⟨v, rfl⟩
      · exact .inr ⟨message, none, rfl⟩
    · subst heq
      obtain ⟨hgood, -⟩ := hj
      exact absurd herror (Int.not_le.mpr hgood)
  | undetailed hundetailed =>
    refine ⟨fun v => ⟨nofun, ?_⟩, fun h => absurd hundetailed h, fun _ _ _ _ h => absurd hundetailed h, fun _ => rfl⟩
    rintro ⟨j, hj, -⟩
    exact absurd hundetailed hj.not_undetailed
  | @failed message status hdetailed hcarries hstatus =>
    refine ⟨fun v => ⟨nofun, ?_⟩, fun _ => .inr ⟨message, status, rfl⟩, fun s body heq herror _ => ?_,
      fun h => absurd h hdetailed⟩
    · rintro ⟨j, hj, -⟩
      exact absurd hj (hcarries j)
    · rw [hstatus s body heq herror]
      exact ⟨message, rfl⟩

theorem settles_previewResult (c : HttpCall) (a : HttpAnswer) :
    Settles (fun j v => PreviewResult.reader j = .valid v) a (c.previewResult a) :=
  settles_of_check (fun _ _ => wellFormed_eq_ok) (fun j => wellFormed_cases _ _ (PreviewResult.reader j)) c a

theorem settles_response (c : HttpCall) (a : HttpAnswer) : Settles Response.Checks a (c.response a) :=
  settles_of_check (fun _ _ => Response.ofJson_eq_ok_iff) Response.ofJson_cases c a

/-- Whatever a service answers, a preview, a query and a look at a job end with the value that the answer
carries, if its check accepts it, and else with an error of the transport, which carries an error status.
Only an error status with a body that is JSON, but no object, ends otherwise. -/
theorem operations_settle (a : HttpAnswer) (r : PreviewRequest) (q : Config) (id : String) :
    Settles (fun j v => PreviewResult.reader j = .valid v) a ((HttpCall.preview r).previewResult a) ∧
    Settles Response.Checks a ((HttpCall.query q).response a) ∧
    Settles Response.Checks a ((HttpCall.job id).response a) :=
  ⟨settles_previewResult _ a, settles_response _ a, settles_response _ a⟩

/-- A query that is answered with an error status and a list ends with neither a value nor an error of the
transport. -/
theorem error_of_list :
    let q : Config := ⟨["orders"], [], [], [], [], [], [], 100, .standard⟩
    let outcome := (HttpCall.query q).response (.answered 500 "[1]")
    (∀ r, outcome ≠ .ok r) ∧ ∀ message status, outcome ≠ .error (.report (.transport message status)) := by
  have hbody : Json.read? "[1]" = some (.arr [.int 1]) := by
    have hchars : "[1]".toList = ['[', '1', ']'] := by decide
    rw [Json.read?, hchars]
    rfl
  have hundetailed : HttpAnswer.Undetailed (.answered 500 "[1]") := .body (by decide) hbody nofun
  intro q outcome
  have houtcome : outcome = .error .noMembers := (settles_response _ _).undetailed hundetailed
  rw [houtcome]
  refine ⟨fun r hvalue => ?_, fun message status hreport => ?_⟩
  · cases hvalue
  · cases hreport

end Client

end AdhocReport
