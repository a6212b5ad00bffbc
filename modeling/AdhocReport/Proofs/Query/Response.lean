import AdhocReport.Query.Response
import AdhocReport.Proofs.Calendar.Moment
import AdhocReport.Proofs.Check.Valid
import AdhocReport.Proofs.Json.Finite
set_option autoImplicit false

/-!
# Responses are read back

A result and a descriptor are told apart by their members: only a result has columns, and no name that a
column or a member of a row has can change that, as these names stand further in.  So what one side dumps
is what the other side reads, and every other JSON value is refused with an error of the transport: the
checks of both forms find issues and nothing else.
-/

namespace AdhocReport

theorem Check.settles_inYears (m : Calendar.Moment) : (Check.inYears m).Settles := by
  unfold Check.inYears
  split
  · simp
  · split
    · simp
    · split <;> simp

theorem Check.settles_moment : Check.Settles Check.moment := by
  intro j
  cases j with
  | str s =>
    simp only [Check.moment]
    split
    · exact Check.settles_inYears _
    · split
      · exact Check.settles_inYears _
      · split
        · exact Check.settles_inYears _
        · simp
  | int n => exact Check.settles_inYears _
  | float x =>
    simp only [Check.moment]
    split
    · simp
    · split
      · simp
      · split
        · simp
        · exact Check.settles_inYears _
  | _ => simp [Check.moment]

namespace Query

/-! ## What is dumped is read -/

theorem nullable_momentToJson {m : Option Calendar.Moment} (hexact : ∀ t, m = some t → t.Exact) :
    Check.nullable Check.moment (momentToJson m) = .valid m := by
  cases m with
  | none => rfl
  | some t => exact Check.nullable_of_reader Json.noConfusion (Check.moment_text_of_exact (hexact t rfl))

/-- The moments among the facts of a result are told in full by their texts. -/
def ResultMeta.Exact (m : ResultMeta) : Prop :=
  (∀ t, m.executedAt = some t → t.Exact) ∧ ∀ t, m.cachedAt = some t → t.Exact

theorem ResultMeta.reader_toJson {m : ResultMeta} (h : m.Exact) : ResultMeta.reader m.toJson = .valid m := by
  obtain ⟨executedAt, cachedAt, cached, hash, jobId, rowCount⟩ := m
  unfold reader toJson
  rw [Check.record_of_known (by simp [known])]
  rw [Check.defaulted_of_lookup rfl (nullable_momentToJson h.1),
    Check.defaulted_of_lookup rfl (nullable_momentToJson h.2),
    Check.defaulted_of_lookup rfl (Check.nullable_ofText? hash),
    Check.defaulted_of_lookup rfl (Check.nullable_ofText? jobId)]
  rfl

/-- The numbers in the rows are finite, and the moments are told in full by their texts. -/
structure ImmediateResult.Dumpable (r : ImmediateResult) : Prop where
  rows : ∀ row ∈ r.rows, ∀ cell ∈ row, cell.2.IsFinite
  moments : r.info.Exact

theorem ImmediateResult.reader_toJson {r : ImmediateResult} (h : r.Dumpable) :
    ImmediateResult.reader r.toJson = .valid r := by
  obtain ⟨columns, rows, sql, info⟩ := r
  have hcolumnsRead : Check.list Check.text (Json.ofTexts columns) = .valid columns :=
    Check.list_map fun c _ => rfl
  have hrowsRead : Check.list Check.object (.arr (rows.map fun row => (Json.obj row).finite)) = .valid rows := by
    refine Check.list_map fun row hmember => ?_
    have hfinite : (Json.obj row).finite = .obj row := (Json.IsFinite.obj (h.rows row hmember)).finite_eq
    rw [hfinite]
    rfl
  unfold reader toJson
  rw [Check.record_of_known (by simp)]
  rw [Check.required_of_lookup rfl hcolumnsRead, Check.required_of_lookup rfl hrowsRead,
    Check.defaulted_of_lookup rfl (Check.nullable_ofText? sql),
    Check.defaulted_of_lookup rfl (ResultMeta.reader_toJson h.moments)]
  rfl

theorem JobDescriptor.reader_toJson (d : JobDescriptor) : JobDescriptor.reader d.toJson = .valid d := by
  obtain ⟨jobId, hash, status, error⟩ := d
  have hstatusRead : Check.choice JobStatus.codes (.str status.code) = .valid status := by
    cases status <;> rfl
  unfold reader toJson
  rw [Check.record_of_known (by simp)]
  rw [Check.defaulted_of_lookup rfl (Check.nullable_ofText? hash), Check.defaulted_of_lookup rfl hstatusRead,
    Check.defaulted_of_lookup rfl (Check.nullable_ofText? error)]
  rfl

/-! ## What is refused -/

theorem ResultMeta.settles_reader : Check.Settles ResultMeta.reader := by
  refine Check.settles_record fun ms => ?_
  have hmoment := Check.settles_nullable Check.settles_moment
  have htext := Check.settles_nullable Check.settles_text
  exact ((((((Check.settles_defaulted hmoment ms _ _).map _).seq (Check.settles_defaulted hmoment ms _ _)).seq
    (Check.settles_defaulted Check.settles_truth ms _ _)).seq (Check.settles_defaulted htext ms _ _)).seq
    (Check.settles_defaulted htext ms _ _)).seq (Check.settles_defaulted Check.settles_integer ms _ _)

theorem ImmediateResult.settles_reader : Check.Settles ImmediateResult.reader := by
  refine Check.settles_record fun ms => ?_
  have hcolumns := Check.settles_list Check.settles_text
  have hrows := Check.settles_list Check.settles_object
  have htext := Check.settles_nullable Check.settles_text
  exact ((((Check.settles_required hcolumns ms _).map _).seq (Check.settles_required hrows ms _)).seq
    (Check.settles_defaulted htext ms _ _)).seq (Check.settles_defaulted ResultMeta.settles_reader ms _ _)

theorem JobDescriptor.settles_reader : Check.Settles JobDescriptor.reader := by
  refine Check.settles_record fun ms => ?_
  have htext := Check.settles_nullable Check.settles_text
  have hstatus := Check.settles_choice JobStatus.codes
  exact ((((Check.settles_required Check.settles_text ms _).map _).seq (Check.settles_defaulted htext ms _ _)).seq
    (Check.settles_defaulted hstatus ms _ _)).seq (Check.settles_defaulted htext ms _ _)

/-- A response is well formed, or the transport is to blame. -/
theorem wellFormed_cases {α : Type} (what title : String) (x : Check.Checked α) :
    (∃ a, wellFormed what title x = .ok a) ∨ ∃ message, wellFormed what title x = .error (.transport message none) := by
  cases x with
  | valid a => exact .inl ⟨a, rfl⟩
  | invalid is => exact .inr ⟨_, rfl⟩
  | stopped fault => exact .inr ⟨_, rfl⟩

namespace Response

/-- What a response carries is carried by its JSON form. -/
def Dumpable : Response → Prop
  | .result r => r.Dumpable
  | .job _ => True

theorem ofJson_cases (j : Json) :
    (∃ r, ofJson j = .ok r) ∨ ∃ message, ofJson j = .error (.transport message none) := by
  have htold {α : Type} (what title : String) (x : Check.Checked α) (form : α → Response) :
      (∃ r, (wellFormed what title x).map form = .ok r) ∨
        ∃ message, (wellFormed what title x).map form = .error (.transport message none) := by
    rcases wellFormed_cases what title x with ⟨a, hread⟩ | ⟨message, hrefused⟩
    · exact .inl ⟨form a, by rw [hread]; rfl⟩
    · exact .inr ⟨message, by rw [hrefused]; rfl⟩
  unfold ofJson
  split
  · split
    · exact htold _ _ _ _
    · split
      · exact htold _ _ _ _
      · exact .inr ⟨_, rfl⟩
  · exact .inr ⟨_, rfl⟩

theorem Dumpable.ofJson_toJson {r : Response} (h : r.Dumpable) : ofJson r.toJson = .ok r := by
  cases r with
  | result r =>
    have hread := ImmediateResult.reader_toJson h
    have hfound : ofJson r.toJson =
        (wellFormed "execution" "ImmediateResult" (ImmediateResult.reader r.toJson)).map .result := rfl
    rw [toJson, hfound, hread]
    rfl
  | job d =>
    have hread := JobDescriptor.reader_toJson d
    have hfound : ofJson d.toJson =
        (wellFormed "execution" "JobDescriptor" (JobDescriptor.reader d.toJson)).map .job := rfl
    rw [toJson, hfound, hread]
    rfl

/-- A response is read back from what was dumped of it, whatever its columns and the members of its rows
are called.  Every JSON value is read as a response or refused with an error of the transport, as the check
of either form ends with a value or with issues. -/
theorem survives_dump :
    (∀ r : Response, r.Dumpable → ofJson r.toJson = .ok r) ∧
    (∀ j, (∃ r, ofJson j = .ok r) ∨ ∃ message, ofJson j = .error (.transport message none)) ∧
    Check.Settles ImmediateResult.reader ∧ Check.Settles JobDescriptor.reader :=
  ⟨fun _ h => h.ofJson_toJson, ofJson_cases, ImmediateResult.settles_reader, JobDescriptor.settles_reader⟩

/-- A result whose columns have the names by which responses are told apart, with a moment in universal
time and one with an offset. -/
theorem survives_dump_named :
    let info : ResultMeta :=
      ⟨some ⟨⟨2024, 2, 29⟩, 12, 0, 59, 1, some 0⟩, some ⟨⟨1, 1, 1⟩, 0, 0, 0, 0, some (-19800)⟩, true, some "h", none, 1⟩
    let r : Response :=
      .result ⟨["job_id", "columns"], [[("job_id", .str "j"), ("columns", .float 0.5)]], none, info⟩
    r.Dumpable ∧ ofJson r.toJson = .ok r := by
  intro info r
  have hdumpable : r.Dumpable := by
    refine ⟨?_, ?_, ?_⟩
    · intro row hmember cell hwithin
      rw [List.mem_singleton.mp hmember] at hwithin
      simp only [List.mem_cons, List.not_mem_nil, or_false] at hwithin
      rcases hwithin with rfl | rfl
      · exact .str "j"
      · exact .float (by decide)
    · intro t hsame
      cases hsame
      constructor <;> simp [Calendar.Date.Valid, Calendar.daysInMonth, Calendar.isLeap]
    · intro t hsame
      cases hsame
      constructor <;> simp [Calendar.Date.Valid, Calendar.daysInMonth]
  exact ⟨hdumpable, survives_dump.1 r hdumpable⟩

end Response

end Query

end AdhocReport
