import AdhocReport.Proofs.Query.RowExpression
import AdhocReport.Proofs.Schema.Introspection
import AdhocReport.Proofs.Sql.Grouping
import AdhocReport.Proofs.Sql.Period
import AdhocReport.Warehouse.Sample
set_option autoImplicit false

/-!
# Queries: rows without a date

Where a date is missing, its hour, day, week, month and year are missing too, so the rows without a date are one
value of the dimension, and how they are grouped does not depend on the period.  The quarter alone is written by a
format for values, which has a text for a missing date as well.
-/

namespace AdhocReport

namespace Sql

open AdhocReport.Calendar AdhocReport.Query

/-- A stored date, or none. -/
def Value.Dated (v : Value) : Prop := v = .null ∨ ∃ t s, t.Shown ∧ Stores t s ∧ v = .text s

/-- The text that the quarter of a missing date is written as. -/
theorem periodOf_quarter_null : periodOf .quarter .null = .text "-00-01" := rfl

/-- The period of a missing date is missing, unless it is a quarter. -/
theorem periodOf_null {b : TimeBucket} (h : b ≠ .quarter) : periodOf b .null = .null := by
  cases b with
  | quarter => exact absurd rfl h
  | hour => rfl
  | day => rfl
  | week => rfl
  | month => rfl
  | year => rfl

/-- The period of a date is there. -/
theorem isNull_periodOf_stored {t : Moment} {s : String} (ht : t.Shown) (hs : Stores t s) (b : TimeBucket) :
    (periodOf b (.text s)).isNull = false := by
  rw [hs.periodOf ht b]
  rfl

end Sql

namespace Query

open AdhocReport.Sql
open Outcome (bind_eq_ok mapM_eq_ok)

variable {t : Target} {c : Config} {st : Statement} {column : ColumnUse} {bucket : Option TimeBucket}

/-! ## The key of a dimension -/

theorem shownByRow_keyScalar (bucket : Option TimeBucket) (column : ColumnUse) :
    Statement.ShownByRow (keyScalar bucket column) := by
  intro g
  cases bucket <;> rfl

/-- The key of a row is missing exactly with its date, unless it is the quarter of a missing date. -/
theorem isNull_keyScalar {r : Sql.Row} (h : (column.value r).Dated) :
    ((keyScalar bucket column).value (.single r)).isNull =
      ((column.value r).isNull && bucket != some .quarter) := by
  cases bucket with
  | none => exact (Bool.and_true _).symm
  | some b =>
    show (periodOf b (column.value r)).isNull = _
    rcases h with hnull | ⟨m, s, hm, hs, htext⟩
    · rw [hnull]
      by_cases hb : b = .quarter
      · rw [hb, periodOf_quarter_null]
        rfl
      · rw [periodOf_null hb]
        simp [Value.isNull, hb]
    · rw [htext, isNull_periodOf_stored hm hs b]
      rfl

/-! ## The statement under another period -/

/-- The configuration with a dimension in some period. -/
def Config.withBucket (c : Config) (before : List Dimension) (dim : Dimension) (after : List Dimension)
    (bucket : Option TimeBucket) : Config :=
  { c with dimensions := before ++ { dim with bucket } :: after }

/-- Dimensions are compiled each on its own, so the key of one stands between those of the others. -/
theorem Scope.keys_of_dimensions {sc : Scope} {before after : List Dimension} {dim : Dimension} {keys : List Output}
    (h : (before ++ dim :: after).mapM sc.dimension = .ok keys) :
    ∃ found pre post, sc.locate dim.ref = .ok found ∧ before.mapM sc.dimension = .ok pre ∧
      after.mapM sc.dimension = .ok post ∧
      keys = pre ++ ⟨dim.outputAlias, keyScalar dim.bucket found.column⟩ :: post := by
  rw [List.mapM_append] at h
  obtain ⟨pre, hpre, h⟩ := bind_eq_ok.mp h
  obtain ⟨rest, hrest, h⟩ := bind_eq_ok.mp h
  obtain ⟨o, post, ho, hpost, rfl⟩ := List.forall₂_cons_left_iff.mp (mapM_eq_ok.mp hrest)
  obtain ⟨found, hfound, rfl⟩ := Scope.dimension_eq_ok ho
  exact ⟨found, pre, post, hfound, hpre, mapM_eq_ok.mpr hpost, (Except.ok.inj h).symm⟩

/-- The period of a dimension changes its key, and nothing else of the statement. -/
theorem Target.analytics_withBucket {before after : List Dimension} {dim : Dimension}
    (h : t.analytics (c.withBucket before dim after bucket) = .ok st) :
    ∃ sc found pre post, t.scope c.models = .ok sc ∧ sc.locate dim.ref = .ok found ∧
      pre.length = before.length ∧ post.length = after.length ∧
      st.keys = pre ++ ⟨dim.outputAlias, keyScalar bucket found.column⟩ :: post ∧
      ∀ bucket' st', t.analytics (c.withBucket before dim after bucket') = .ok st' →
        st' = { st with keys := pre ++ ⟨dim.outputAlias, keyScalar bucket' found.column⟩ :: post } := by
  obtain ⟨sc, joined, metrics, derived, conditions, hscope, hjoined, hkeys, hmetrics, hderived, hconditions, hst⟩ :=
    Target.analytics_parts h
  obtain ⟨found, pre, post, hfound, hpre, hpost, hkeysEq⟩ := Scope.keys_of_dimensions hkeys
  refine ⟨sc, found, pre, post, hscope, hfound, (mapM_eq_ok.mp hpre).length_eq.symm,
    (mapM_eq_ok.mp hpost).length_eq.symm, hkeysEq, fun bucket' st' h' => ?_⟩
  -- All other parts are compiled from the same, so they are the same.
  obtain ⟨sc', joined', metrics', derived', conditions', hscope', hjoined', hkeys', hmetrics', hderived',
    hconditions', hst'⟩ := Target.analytics_parts h'
  have hgrouped (b : Option TimeBucket) : (c.withBucket before dim after b).grouped = true := by
    simp [Config.grouped, Config.withBucket]
  obtain rfl : sc' = sc := Except.ok.inj (hscope'.symm.trans hscope)
  obtain ⟨found', pre', post', hfound', hpre', hpost', hkeysEq'⟩ := Scope.keys_of_dimensions hkeys'
  rw [hgrouped] at hderived hderived'
  obtain rfl : joined' = joined := Except.ok.inj (hjoined'.symm.trans hjoined)
  obtain rfl : metrics' = metrics := Except.ok.inj (hmetrics'.symm.trans hmetrics)
  obtain rfl : derived' = derived := Except.ok.inj (hderived'.symm.trans hderived)
  obtain rfl : conditions' = conditions := Except.ok.inj (hconditions'.symm.trans hconditions)
  obtain rfl : found' = found := Except.ok.inj (hfound'.symm.trans hfound)
  obtain rfl : pre' = pre := Except.ok.inj (hpre'.symm.trans hpre)
  obtain rfl : post' = post := Except.ok.inj (hpost'.symm.trans hpost)
  rw [hst', hkeysEq', hst]
  rfl

/-! ## Rows as they are read -/

theorem columnsAll_congr {xs ys : List Scalar} {e e' : Scalar} (h : e.columns = e'.columns) :
    Scalar.columnsAll (xs ++ e :: ys) = Scalar.columnsAll (xs ++ e' :: ys) := by
  induction xs with
  | nil => exact congrArg (· ++ Scalar.columnsAll ys) h
  | cons x xs ih => exact congrArg (x.columns ++ ·) ih

/-- The rows come in one order, whatever the period of a dimension is. -/
theorem readRows_eq {pre post : List Output} {label : String} {bucket' : Option TimeBucket}
    (hkeys : st.keys = pre ++ ⟨label, keyScalar bucket column⟩ :: post) (content : Content) :
    ({ st with keys := pre ++ ⟨label, keyScalar bucket' column⟩ :: post } : Statement).readRows content =
      st.readRows content := by
  have hcolumn (b : Option TimeBucket) : (keyScalar b column).columns = [column.fullName] := by
    cases b <;> rfl
  have hcolumns : ({ st with keys := pre ++ ⟨label, keyScalar bucket' column⟩ :: post } : Statement).columns =
      st.columns := by
    simp only [Statement.columns, Statement.outputs, hkeys, List.map_append, List.map_cons, List.append_assoc,
      List.cons_append]
    rw [columnsAll_congr ((hcolumn bucket').trans (hcolumn bucket).symm)]
  have hreading : ({ st with keys := pre ++ ⟨label, keyScalar bucket' column⟩ :: post } : Statement).readingKeys? =
      st.readingKeys? := by
    simp only [Statement.readingKeys?, hcolumns]
  simp only [Statement.readRows, Statement.inReadingOrder, hreading]
  rfl

/-! ## Rows without a date -/

/-- No quarter is asked of a row without a date. -/
def NoUndatedQuarter (bucket : Option TimeBucket) (column : ColumnUse) (rows : List Sql.Row) : Prop :=
  bucket = some .quarter → ∀ r ∈ rows, column.value r ≠ .null

/-- The key of each row is missing exactly with its date. -/
def KeyFollowsDate (key : Scalar) (column : ColumnUse) (rows : List Sql.Row) : Prop :=
  ∀ r ∈ rows, (key.value (.single r) = .null ↔ column.value r = .null)

/-- The key of each row is missing exactly with its date just when no quarter is asked of a row without one. -/
theorem keyFollowsDate_iff {rows : List Sql.Row} (hdated : ∀ r ∈ rows, (column.value r).Dated) :
    KeyFollowsDate (keyScalar bucket column) column rows ↔ NoUndatedQuarter bucket column rows := by
  constructor
  · rintro hfollows rfl r hr hnull
    have hkey := (hfollows r hr).mpr hnull
    rw [← Value.isNull_iff, isNull_keyScalar (hdated r hr), hnull] at hkey
    cases hkey
  · intro hnone r hr
    rw [← Value.isNull_iff, ← Value.isNull_iff, isNull_keyScalar (hdated r hr), Bool.and_eq_true,
      bne_iff_ne, and_iff_left_iff_imp]
    rintro hnull rfl
    exact hnone rfl r hr (Value.isNull_iff.mp hnull)

theorem mem_readRows {content : Content} {r : Sql.Row} : r ∈ st.readRows content ↔ r ∈ st.matchingRows content :=
  (st.perm_inReadingOrder _).mem_iff

/-- The rows without a value in a column. -/
def undatedRows (st : Statement) (column : ColumnUse) (content : Content) : List Sql.Row :=
  (st.readRows content).filter fun r => (column.value r).isNull

section

variable {pre post : List Output} {label : String} {content : Content}

theorem undatedRows_eq {key : Scalar} (hfollows : KeyFollowsDate key column (st.readRows content)) :
    (st.readRows content).filter (fun r => (key.value (.single r)).isNull) = undatedRows st column content := by
  refine List.filter_congr fun r hr => ?_
  rw [Bool.eq_iff_iff, Value.isNull_iff, Value.isNull_iff]
  exact hfollows r hr

theorem perm_undated_groups (hkeys : st.keys = pre ++ ⟨label, keyScalar bucket column⟩ :: post)
    (hfollows : KeyFollowsDate (keyScalar bucket column) column (st.readRows content)) :
    (st.groupsWithout (keyScalar bucket column) content).Perm
      ((Statement.grouped st.keysOf (undatedRows st column content)).map Statement.groupOf) := by
  rw [← undatedRows_eq hfollows]
  exact Statement.perm_groupsWithout hkeys (shownByRow_keyScalar bucket column) content

/-- A group has no value for the key exactly when it is made of rows without a date. -/
theorem key_of_group (hkeys : st.keys = pre ++ ⟨label, keyScalar bucket column⟩ :: post)
    (hfollows : KeyFollowsDate (keyScalar bucket column) column (st.readRows content)) {g : Group}
    (hg : g ∈ st.resultGroups content) :
    (keyScalar bucket column).value g = .null ↔ ∀ r ∈ g.rows, column.value r = .null := by
  constructor
  · intro hnull r hr
    have hwithout : g ∈ st.groupsWithout (keyScalar bucket column) content :=
      List.mem_filter.mpr ⟨hg, Value.isNull_iff.mpr hnull⟩
    obtain ⟨pair, hpair, rfl⟩ := List.mem_map.mp ((perm_undated_groups hkeys hfollows).mem_iff.mp hwithout)
    exact Value.isNull_iff.mp (List.mem_filter.mp ((Statement.mem_grouped hpair).2.1 r hr)).2
  · intro hundated
    obtain ⟨hshown, hread⟩ := Statement.mem_resultGroups hkeys hg
    rw [shownByRow_keyScalar]
    exact (hfollows _ (hread _ hshown)).mpr (hundated _ hshown)

/-- With no other dimension the rows without a date are one group, if there are any. -/
theorem undated_groups_alone (hkeys : st.keys = [⟨label, keyScalar bucket column⟩])
    (hfollows : KeyFollowsDate (keyScalar bucket column) column (st.readRows content)) :
    (st.groupsWithout (keyScalar bucket column) content).map (·.rows) =
      if undatedRows st column content = [] then [] else [undatedRows st column content] := by
  have hkeys' : st.keys = [] ++ ⟨label, keyScalar bucket column⟩ :: [] := hkeys
  have hperm := perm_undated_groups hkeys' hfollows
  split
  · rename_i hnone
    rw [hnone] at hperm
    rw [hperm.eq_nil]
    rfl
  · rename_i hsome
    have hnull : ∀ r ∈ undatedRows st column content, st.keysOf r = [.null] := by
      intro r hr
      obtain ⟨hread, hundated⟩ := List.mem_filter.mp hr
      simp only [Statement.keysOf, hkeys, List.map_cons, List.map_nil]
      rw [(hfollows r hread).mpr (Value.isNull_iff.mp hundated)]
    rw [Statement.grouped_of_same rfl hnull hsome] at hperm
    rw [List.perm_singleton.mp hperm]
    rfl

/-- The groups without a date are the same for two periods. -/
theorem undated_groups_of_buckets {bucket' : Option TimeBucket} {st' : Statement}
    (hst' : st' = { st with keys := pre ++ ⟨label, keyScalar bucket' column⟩ :: post })
    (hkeys : st.keys = pre ++ ⟨label, keyScalar bucket column⟩ :: post)
    (hfollows : KeyFollowsDate (keyScalar bucket column) column (st.readRows content))
    (hfollows' : KeyFollowsDate (keyScalar bucket' column) column (st'.readRows content)) :
    (st.groupsWithout (keyScalar bucket column) content).Perm
      (st'.groupsWithout (keyScalar bucket' column) content) := by
  have hkeys' : st'.keys = pre ++ ⟨label, keyScalar bucket' column⟩ :: post := by rw [hst']
  have hread : st'.readRows content = st.readRows content := by
    rw [hst']
    exact readRows_eq hkeys content
  have hundated : undatedRows st' column content = undatedRows st column content := by
    rw [undatedRows, undatedRows, hread]
  have hsame : ∀ r ∈ undatedRows st column content, st.keysOf r = st'.keysOf r := by
    intro r hr
    obtain ⟨hmem, hnull⟩ := List.mem_filter.mp hr
    rw [Value.isNull_iff] at hnull
    simp only [Statement.keysOf, hkeys, hkeys', List.map_append, List.map_cons, (hfollows r hmem).mpr hnull,
      (hfollows' r (hread ▸ hmem)).mpr hnull]
  refine (perm_undated_groups hkeys hfollows).trans ?_
  rw [Statement.grouped_congr hsame, ← hundated]
  exact (perm_undated_groups hkeys' hfollows').symm

end

/-- In the statement of a configuration with a dimension over stored dates, the key of a row is missing exactly
with its date just when no quarter is asked of a row without a date.  Then the groups without a key are those of
rows without a date, such rows are one group where there is no other dimension, and they are grouped alike for
all periods. -/
theorem undated_rows_grouped {before after : List Dimension} {dim : Dimension}
    (h : t.analytics (c.withBucket before dim after bucket) = .ok st) :
    ∃ sc found, t.scope c.models = .ok sc ∧ sc.locate dim.ref = .ok found ∧
      (st.keys[before.length]?.map (·.value)) = some (keyScalar bucket found.column) ∧
      ∀ content, (∀ r ∈ st.matchingRows content, (found.column.value r).Dated) →
        (KeyFollowsDate (keyScalar bucket found.column) found.column (st.matchingRows content) ↔
          NoUndatedQuarter bucket found.column (st.matchingRows content)) ∧
        (NoUndatedQuarter bucket found.column (st.matchingRows content) →
          (∀ g ∈ st.resultGroups content, g.rows ≠ [] ∧
            ((keyScalar bucket found.column).value g = .null ↔ ∀ r ∈ g.rows, found.column.value r = .null)) ∧
          (before = [] → after = [] →
            (st.groupsWithout (keyScalar bucket found.column) content).map (·.rows) =
              if undatedRows st found.column content = [] then [] else [undatedRows st found.column content]) ∧
          ∀ bucket' st', t.analytics (c.withBucket before dim after bucket') = .ok st' →
            NoUndatedQuarter bucket' found.column (st.matchingRows content) →
            (st.groupsWithout (keyScalar bucket found.column) content).Perm
              (st'.groupsWithout (keyScalar bucket' found.column) content)) := by
  obtain ⟨sc, found, pre, post, hscope, hfound, hpre, hpost, hkeys, hother⟩ := Target.analytics_withBucket h
  refine ⟨sc, found, hscope, hfound, ?_, fun content hdated => ⟨keyFollowsDate_iff hdated, fun hnone => ?_⟩⟩
  · rw [hkeys, ← hpre, List.getElem?_append_right le_rfl, Nat.sub_self]
    rfl
  · have hfollows : KeyFollowsDate (keyScalar bucket found.column) found.column (st.readRows content) :=
      fun r hr => (keyFollowsDate_iff hdated).mpr hnone r (mem_readRows.mp hr)
    refine ⟨fun g hg => ⟨?_, key_of_group hkeys hfollows hg⟩, fun hbefore hafter => ?_, fun bucket' st' h' hnone' => ?_⟩
    · exact List.ne_nil_of_mem (Statement.mem_resultGroups hkeys hg).1
    · rw [hbefore, List.length_nil, List.length_eq_zero_iff] at hpre
      rw [hafter, List.length_nil, List.length_eq_zero_iff] at hpost
      rw [hpre, hpost] at hkeys
      exact undated_groups_alone hkeys hfollows
    · have hst' := hother bucket' st' h'
      have hfollows' : KeyFollowsDate (keyScalar bucket' found.column) found.column (st'.readRows content) := by
        rw [hst', readRows_eq hkeys]
        exact fun r hr => (keyFollowsDate_iff hdated).mpr hnone' r (mem_readRows.mp hr)
      exact undated_groups_of_buckets hst' hkeys hfollows hfollows'

/-- The column of the dates of refunds. -/
def refundDate : ColumnUse := ⟨"refunds", Warehouse.plainColumn "refunded_on" "DATE" .date true⟩

/-- Refunds by the period of their date. -/
def refundsBy (bucket : Option TimeBucket) : Config :=
  Config.withBucket ⟨["refunds"], [], [], [], [], [], [], 100, .standard⟩ []
    ⟨⟨"refunds", "refunded_on"⟩, none, "period"⟩ [] bucket

/-- The dates of the sample refunds are stored dates; the last one is missing. -/
theorem dated_sampleRefunds : ∀ r ∈ Warehouse.sampleRefunds.map (Row.single "refunds"), (refundDate.value r).Dated := by
  have hstored (m n : ℕ) (hmonth : 1 ≤ m ∧ m ≤ 12) (hday : 1 ≤ n ∧ n ≤ 28) :
      (Value.text (Calendar.Date.text ⟨2024, m, n⟩)).Dated := by
    have hlength := (Calendar.Date.daysInMonth_range 2024 m).1
    refine .inr ⟨_, _, Calendar.Moment.shown_ofDate ?_ (show (1 : ℤ) ≤ 2024 by decide)
      (show (2024 : ℤ) ≤ 9999 by decide), .date _, rfl⟩
    exact ⟨hmonth.1, hmonth.2, hday.1, hday.2.trans hlength⟩
  exact List.forall_mem_cons.mpr ⟨hstored 1 16 (by decide) (by decide),
    List.forall_mem_cons.mpr ⟨hstored 1 21 (by decide) (by decide),
      List.forall_mem_cons.mpr ⟨.inl rfl, List.forall_mem_nil _⟩⟩⟩

/-- By month the one sample refund without a date is a group of its own. -/
theorem undated_refunds_by_month :
    ∃ st, storedWarehouse.analytics (refundsBy (some .month)) = .ok st ∧
      (∀ r ∈ st.matchingRows Warehouse.sample, (refundDate.value r).Dated) ∧
      NoUndatedQuarter (some .month) refundDate (st.matchingRows Warehouse.sample) ∧
      (undatedRows st refundDate Warehouse.sample).length = 1 ∧
      (st.groupsWithout (keyScalar (some .month) refundDate) Warehouse.sample).map (·.rows) =
        [undatedRows st refundDate Warehouse.sample] := by
  obtain ⟨st, hst⟩ : ∃ st, storedWarehouse.analytics (refundsBy (some .month)) = .ok st := ⟨_, rfl⟩
  obtain ⟨sc, found, hscope, hfound, -, hall⟩ := undated_rows_grouped hst
  obtain rfl := Except.ok.inj hscope
  obtain rfl := Except.ok.inj hfound
  obtain rfl := Except.ok.inj hst
  have hdated : ∀ r ∈ Warehouse.sampleRefunds.map (Row.single "refunds"), (refundDate.value r).Dated :=
    dated_sampleRefunds
  have hnone : NoUndatedQuarter (some .month) refundDate (Warehouse.sampleRefunds.map (Row.single "refunds")) :=
    fun h => absurd h (by decide)
  obtain ⟨-, hgroups⟩ := hall Warehouse.sample hdated
  obtain ⟨-, halone, -⟩ := hgroups hnone
  exact ⟨_, rfl, hdated, hnone, rfl, halone rfl rfl⟩

/-- By quarter a sample refund without a date has a key. -/
theorem undated_refund_has_quarter :
    ∃ st, storedWarehouse.analytics (refundsBy (some .quarter)) = .ok st ∧
      st.keys.map (·.value) = [keyScalar (some .quarter) refundDate] ∧
      ∃ r ∈ st.matchingRows Warehouse.sample, refundDate.value r = .null ∧
        (keyScalar (some .quarter) refundDate).value (.single r) = .text "-00-01" := by
  exact ⟨_, rfl, rfl, _, .tail _ (.tail _ (.head _)), rfl, rfl⟩

end Query

end AdhocReport
