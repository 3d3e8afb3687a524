import ChainMonitor.Scanner.Analyze

/-! When `ScannerAnalyzer.analyze` returns a report. -/

namespace ChainMonitor.Analyze

open ProofKit

variable {a : ScannerAnalyzer} {rows part : List ResultRow} {r : ResultRow} {κ : Type}
  [DecidableEq κ] {key : ResultRow → κ} {before : κ → κ → Bool}

/-- A count of the rows is an `integer`. -/
def Few (rows : List ResultRow) : Prop := rows.length < 2 ^ 31

/-! ### Counts -/

theorem Few.sublist (h : Few rows) (hpart : part.Sublist rows) : Few part :=
  hpart.length_le.trans_lt h

theorem Few.filter (h : Few rows) (p : ResultRow → Bool) : Few (rows.filter p) :=
  h.sublist List.filter_sublist

theorem Few.group (h : Few rows) {g : κ × List ResultRow} (hg : g ∈ byKey before key rows) :
    Few g.2 :=
  h.sublist (Sql.sublist_of_mem_groupBy (Sql.mem_orderBy.mp hg))

theorem int_returns {n : ℕ} (h : n < 2 ^ 31) : Returns (int n) :=
  ⟨n, Sql.toInt_eq_ok.mpr ⟨⟨by omega, by omega⟩, rfl⟩⟩

theorem count_returns (h : Few rows) (p : ResultRow → Bool) : Returns (count p rows) :=
  int_returns (List.countP_le_length.trans_lt h)

theorem countAll_returns (h : Few rows) : Returns (countAll rows) := count_returns h _

theorem countAll_returns_iff : Returns (countAll rows) ↔ Few rows := by
  constructor
  · rintro ⟨n, hn⟩
    rw [countAll, count, int, Sql.toInt_eq_ok] at hn
    obtain ⟨⟨-, hlt⟩, -⟩ := hn
    rw [List.countP_true] at hlt
    unfold Few
    omega
  · exact countAll_returns

theorem countDistinct_returns (h : Few rows) : Returns (countDistinct key rows) := by
  refine int_returns (lt_of_le_of_lt ?_ h)
  calc (rows.map key).dedup.length ≤ (rows.map key).length := (List.dedup_sublist _).length_le
    _ = rows.length := List.length_map _

theorem percent_returns {part total : ℤ} (h : total ≠ 0) : Returns (percent part total) :=
  ⟨_, if_neg h⟩

theorem percentOrZero_returns (part total : ℤ) : Returns (percentOrZero part total) := by
  unfold percentOrZero
  split
  · exact returns_pure 0
  · rename_i h
    exact percent_returns h

theorem orOne_ne_zero (n : ℤ) : orOne n ≠ 0 := by
  unfold orOne
  split
  · decide
  · assumption

/-! ### The sections that return over every table -/

theorem overview_returns_iff : Returns (overview a rows) ↔ Few rows := by
  constructor
  · intro h
    exact countAll_returns_iff.mp h.left
  · intro h
    exact (countAll_returns h).bind fun total => (countDistinct_returns h).bind fun _ =>
      (countDistinct_returns h).bind fun _ => (countDistinct_returns h).bind fun _ =>
      (count_returns h _).bind fun _ => (count_returns h _).bind fun _ =>
      (count_returns h _).bind fun _ => (count_returns h _).bind fun _ =>
      (percentOrZero_returns _ total).bind fun _ => (percentOrZero_returns _ total).bind fun _ =>
      (percentOrZero_returns _ total).bind fun _ => (percentOrZero_returns _ total).bind fun _ =>
      returns_pure _

theorem reasonCounts_returns (h : Few rows) : Returns (reasonCounts rows) := by
  refine returns_mapM.mpr fun g hg => ?_
  have hgroup : Few g.2 := h.sublist (Sql.sublist_of_mem_groupBy (Sql.mem_orderBy.mp hg))
  exact (countAll_returns hgroup).bind fun _ => returns_pure _

/-- The reject rate of a day is a number: it has a row. -/
theorem rate_ne_none {g : κ × List ResultRow} (hg : g ∈ byKey before key rows)
    (p : ResultRow → Bool) : rate p (fun _ => true) g.2 ≠ none := by
  obtain ⟨hne, -⟩ := Sql.mem_groupBy.mp (Sql.mem_orderBy.mp hg)
  simp [rate, List.countP_true, hne]

theorem float_returns_iff {x : Option ℚ} : Returns (float x) ↔ x ≠ none := by
  cases x with
  | none => exact iff_of_false (fun ⟨_, h⟩ => nomatch h) (fun h => h rfl)
  | some x => exact iff_of_true ⟨x, rfl⟩ nofun

theorem filterAnalysis_returns (h : Few rows) : Returns (filterAnalysis a rows) := by
  refine (reasonCounts_returns h).bind fun rows1 => ?_
  have hreasons : ∀ r ∈ rows1, Returns (percent r.2 (orOne (rows1.map Prod.snd).sum)) :=
    fun r _ => percent_returns (orOne_ne_zero _)
  refine (returns_mapM.mpr fun r hr => (hreasons r hr).bind fun _ => returns_pure _).bind
    fun _ => ?_
  refine (returns_mapM.mpr fun g hg => ?_).bind fun _ =>
    (returns_mapM.mpr fun g hg => ?_).bind fun _ => returns_pure _
  · exact (countAll_returns (h.group hg)).bind fun _ => (count_returns (h.group hg) _).bind fun _ =>
      returns_pure _
  · exact (countAll_returns (h.group hg)).bind fun _ =>
      (float_returns_iff.mpr (rate_ne_none hg _)).bind fun _ => returns_pure _

theorem scoreDistribution_returns (h : Few rows) : Returns (scoreDistribution a rows) := by
  have hscored : Few (scored rows) := h.filter _
  refine (returns_mapM.mpr fun g hg => ?_).bind fun _ =>
    (returns_mapM.mpr fun g hg => ?_).bind fun _ => returns_pure _
  · exact (countAll_returns (hscored.group hg)).bind fun _ => returns_pure _
  · exact (countAll_returns (hscored.group hg)).bind fun _ => returns_pure _

theorem signalAnalysis_returns (h : Few rows) : Returns (signalAnalysis a rows) := by
  refine (returns_mapM.mpr fun g hg => ?_).bind fun _ =>
    (returns_mapM.mpr fun g hg => ?_).bind fun _ => returns_pure _
  · exact (countAll_returns ((h.filter _).group hg)).bind fun _ => returns_pure _
  · exact (countAll_returns (h.group hg)).bind fun _ => (count_returns (h.group hg) _).bind fun _ =>
      returns_pure _

theorem chainComparison_returns (h : Few rows) : Returns (chainComparison a rows) := by
  refine returns_mapM.mpr fun g hg => ?_
  have hgroup := h.group hg
  exact (countAll_returns hgroup).bind fun _ => (countDistinct_returns hgroup).bind fun _ =>
    (count_returns hgroup _).bind fun _ => (count_returns hgroup _).bind fun _ =>
    (count_returns hgroup _).bind fun _ => returns_pure _

theorem tokenSpotlight_returns (h : Few rows) : Returns (tokenSpotlight rows) := by
  have hgroup : ∀ g ∈ byToken rows, Few g.2 := fun g hg =>
    h.sublist (Sql.sublist_of_mem_groupBy hg)
  refine (returns_mapM.mpr fun g hg => ?_).bind fun _ =>
    (returns_mapM.mpr fun g hg => ?_).bind fun _ =>
    (returns_mapM.mpr fun g hg => ?_).bind fun _ => returns_pure _
  · have hfew := hgroup g (Sql.mem_orderBy.mp (List.mem_of_mem_take hg))
    exact (countAll_returns hfew).bind fun _ => returns_pure _
  · have hfew := hgroup g (List.mem_of_mem_filter (Sql.mem_orderBy.mp (List.mem_of_mem_take hg)))
    exact (countAll_returns hfew).bind fun _ => (count_returns hfew _).bind fun _ => returns_pure _
  · have hfew := hgroup g (List.mem_of_mem_filter (Sql.mem_orderBy.mp (List.mem_of_mem_take hg)))
    exact (countAll_returns hfew).bind fun _ => returns_pure _

theorem cooldownAnalysis_returns (h : Few rows) : Returns (cooldownAnalysis a rows) := by
  refine (count_returns h _).bind fun _ => (countAll_returns h).bind fun total =>
    (returns_mapM.mpr fun g hg => ?_).bind fun _ =>
    (percent_returns (orOne_ne_zero total)).bind fun _ => returns_pure _
  have hgroup := h.group hg
  exact (count_returns hgroup _).bind fun _ => (countAll_returns hgroup).bind fun _ =>
    (percentOrZero_returns _ _).bind fun _ => returns_pure _

theorem sensitivity_returns (h : Few rows) (current minus plus : ℤ) :
    Returns (sensitivity current minus plus rows) :=
  (count_returns h _).bind fun _ => (count_returns h _).bind fun _ => (count_returns h _).bind
    fun _ => returns_pure _

theorem thresholdSensitivity_returns (h : Few rows) : Returns (thresholdSensitivity a rows) := by
  have hpassed : Few (rows.filter ResultRow.filterPassed) := h.filter _
  refine (returns_mapM.mpr fun g hg => ?_).bind fun _ => (sensitivity_returns hpassed _ _ _).bind
    fun _ => (sensitivity_returns hpassed _ _ _).bind fun _ =>
    (sensitivity_returns hpassed _ _ _).bind fun _ => returns_pure _
  exact (countAll_returns (hpassed.group hg)).bind fun _ =>
    (count_returns (hpassed.group hg) _).bind fun _ => returns_pure _

/-! ### The factors -/

/-- Each of these rows has factors that an `integer` holds. -/
def FactorsFit (rows : List ResultRow) : Prop :=
  ∀ r ∈ rows, ∀ k ∈ factorKeys, ∀ n ∈ factorOf k r, Sql.IsInt n

theorem factor_eq_ok {k : String} {v : Option ℤ} :
    factor k r = .ok v ↔ v = factorOf k r ∧ ∀ n ∈ factorOf k r, Sql.IsInt n := by
  unfold factor
  cases h : factorOf k r with
  | none => simp [eq_comm]
  | some n =>
    simp only [map_eq_ok, int, Sql.toInt_eq_ok, Option.mem_some_iff, forall_eq']
    constructor
    · rintro ⟨m, ⟨hn, rfl⟩, rfl⟩
      exact ⟨rfl, hn⟩
    · rintro ⟨rfl, hn⟩
      exact ⟨n, ⟨hn, rfl⟩, rfl⟩

theorem share_eq_ok {k : String} {v : Option ℤ} :
    share k r = .ok v ↔
      v = Sql.quotient (factorOf k r) r.scoreTotal ∧ ∀ n ∈ factorOf k r, Sql.IsInt n := by
  unfold share
  simp only [bind_eq_ok, factor_eq_ok]
  constructor
  · rintro ⟨_, ⟨rfl, hfit⟩, hv⟩
    exact ⟨(Except.ok.inj hv).symm, hfit⟩
  · rintro ⟨rfl, hfit⟩
    exact ⟨_, ⟨rfl, hfit⟩, rfl⟩

theorem factor_returns_iff {k : String} :
    Returns (factor k r) ↔ ∀ n ∈ factorOf k r, Sql.IsInt n := by
  simp [Returns, factor_eq_ok]

theorem share_returns_iff {k : String} :
    Returns (share k r) ↔ ∀ n ∈ factorOf k r, Sql.IsInt n := by
  simp [Returns, share_eq_ok]

theorem roundAvg_returns_iff {places : ℕ} {x : ResultRow → Except AnalyzeError (Option ℤ)} :
    Returns (roundAvg places x rows) ↔ ∀ r ∈ rows, Returns (x r) := by
  unfold roundAvg
  rw [returns_bind_iff fun _ => iff_true_intro (returns_pure _), and_true, returns_mapM]

theorem factorAverages_returns_iff : Returns (factorAverages rows) ↔ FactorsFit rows := by
  unfold factorAverages
  simp only [returns_mapM, returns_bind_iff fun _ => iff_true_intro (returns_pure _), and_true,
    roundAvg_returns_iff, factor_returns_iff]
  exact ⟨fun h r hr k hk => h k hk r hr, fun h k hk r hr => h r hr k hk⟩

/-- An average is a number when one of the rows has a value. -/
theorem roundAvg_eq_some {places : ℕ} {x : ResultRow → Except AnalyzeError (Option ℤ)} :
    (∃ q, roundAvg places x rows = .ok (some q)) ↔
      (∀ r ∈ rows, Returns (x r)) ∧ ∃ r ∈ rows, ∃ n, x r = .ok (some n) := by
  unfold roundAvg
  simp only [bind_eq_ok, mapM_eq_ok]
  constructor
  · rintro ⟨q, values, hvalues, hq⟩
    obtain ⟨y, hy, -⟩ := Option.map_eq_some_iff.mp (Except.ok.inj hq)
    have hne : values.reduceOption ≠ [] := fun hnil => by simp [Sql.avg, hnil] at hy
    obtain ⟨n, hn⟩ := List.exists_mem_of_ne_nil _ hne
    obtain ⟨r, hr, hx⟩ := forall₂_mem_left hvalues.flip (List.reduceOption_mem_iff.mp hn)
    exact ⟨exists_forall₂.mp ⟨values, hvalues⟩, r, hr, n, hx⟩
  · rintro ⟨hreturns, r, hr, n, hx⟩
    obtain ⟨values, hvalues⟩ := exists_forall₂.mpr hreturns
    obtain ⟨value, hvalue, hrow⟩ := forall₂_mem_left hvalues hr
    obtain rfl : some n = value := Except.ok.inj (hx.symm.trans hrow)
    have hne : values.reduceOption ≠ [] :=
      List.ne_nil_of_mem (List.reduceOption_mem_iff.mpr hvalue)
    exact ⟨_, values, hvalues, by rw [Sql.avg, if_neg hne]; rfl⟩

/-- What `overall_ratios` holds: the average of the shares of each factor. -/
theorem overallRatios_eq_ok {ratios : List (String × ℚ)} :
    overallRatios rows = .ok ratios ↔
      List.Forall₂ (fun k kx => kx.1 = k ∧ roundAvg 3 (share k) (shareRows rows) = .ok (some kx.2))
        factorKeys ratios := by
  unfold overallRatios ratioRows
  have hitem : ∀ (k : String) (kx : String × ℚ),
      (∃ x, roundAvg 3 (share k) (shareRows rows) = .ok x ∧
        (do return (k, ← float x) : Except AnalyzeError (String × ℚ)) = .ok kx) ↔
      kx.1 = k ∧ roundAvg 3 (share k) (shareRows rows) = .ok (some kx.2) := by
    rintro k ⟨l, q⟩
    constructor
    · rintro ⟨x, hx, hfloat⟩
      cases x with
      | none => cases hfloat
      | some y =>
        cases hfloat
        exact ⟨rfl, hx⟩
    · rintro ⟨rfl, hq⟩
      exact ⟨some q, hq, rfl⟩
  simp only [← hitem]
  rw [← exists_forall₂_zip (R := fun k x => roundAvg 3 (share k) (shareRows rows) = .ok x)
    (S := fun kx p => (do return (kx.1, ← float kx.2) : Except AnalyzeError (String × ℚ)) = .ok p)]
  constructor
  · intro h
    obtain ⟨_, hrows, hratios⟩ := bind_eq_ok.mp h
    obtain ⟨first, hfirst, hrow⟩ := bind_eq_ok.mp hrows
    cases hrow
    exact ⟨first, mapM_eq_ok.mp hfirst, mapM_eq_ok.mp hratios⟩
  · rintro ⟨first, hfirst, hratios⟩
    exact bind_eq_ok.mpr ⟨[first], bind_eq_ok.mpr ⟨first, mapM_eq_ok.mpr hfirst, rfl⟩,
      mapM_eq_ok.mpr hratios⟩

theorem total_of_mem_shareRows (h : r ∈ shareRows rows) :
    ∃ total, r.scoreTotal = some total ∧ 0 < total := by
  obtain ⟨total, htotal, hpos⟩ := (Option.any_eq_true _ _).mp (List.mem_filter.mp h).2
  exact ⟨total, htotal, of_decide_eq_true hpos⟩

/-- The quotient of such a row is NULL only where the factor is. -/
theorem quotient_of_mem_shareRows (h : r ∈ shareRows rows) (x : Option ℤ) :
    Sql.quotient x r.scoreTotal = x.map fun n => n.tdiv (r.scoreTotal.getD 0) := by
  obtain ⟨total, htotal, hpos⟩ := total_of_mem_shareRows h
  cases x with
  | none => rfl
  | some n => simp [htotal, hpos.ne', Sql.quotient]

theorem overallRatios_returns_iff (hfit : FactorsFit (shareRows rows)) :
    Returns (overallRatios rows) ↔
      ∀ k ∈ factorKeys, ∃ r ∈ shareRows rows, (factorOf k r).isSome := by
  simp only [Returns, overallRatios_eq_ok, exists_forall₂]
  refine forall₂_congr fun k hk => ?_
  have hreturns : ∀ r ∈ shareRows rows, Returns (share k r) := fun r hr =>
    share_returns_iff.mpr (hfit r hr k hk)
  have hsome : ∀ r ∈ shareRows rows, (∃ n, share k r = .ok (some n)) ↔ (factorOf k r).isSome := by
    intro r hr
    simp only [share_eq_ok, and_iff_left (hfit r hr k hk), quotient_of_mem_shareRows hr]
    cases factorOf k r with
    | none => simp
    | some n => simp
  calc (∃ kx : String × ℚ, kx.1 = k ∧ roundAvg 3 (share k) (shareRows rows) = .ok (some kx.2))
      ↔ ∃ q, roundAvg 3 (share k) (shareRows rows) = .ok (some q) := by
        simp only [Prod.exists, exists_and_left, exists_eq_left]
    _ ↔ ∃ r ∈ shareRows rows, ∃ n, share k r = .ok (some n) := by
        rw [roundAvg_eq_some, and_iff_right hreturns]
    _ ↔ ∃ r ∈ shareRows rows, (factorOf k r).isSome :=
        exists_congr fun r => and_congr_right fun hr => hsome r hr

theorem FactorsFit.subset (h : FactorsFit rows) (hpart : part ⊆ rows) : FactorsFit part :=
  fun r hr => h r (hpart hr)

/-- Each ratio has a row to be taken from. -/
def RatiosExist (rows : List ResultRow) : Prop :=
  ∀ k ∈ factorKeys, ∃ r ∈ shareRows rows, (factorOf k r).isSome

theorem factorBreakdown_returns_iff (h : Few rows) :
    Returns (factorBreakdown a rows) ↔ FactorsFit (broken rows) ∧ RatiosExist rows := by
  have hshare : FactorsFit (broken rows) → FactorsFit (shareRows rows) := fun hfit =>
    hfit.subset (List.filter_subset_self _)
  have hbroken : Few (broken rows) := h.filter _
  constructor
  · rintro ⟨fb, hfb⟩
    obtain ⟨averages, haverages, hrest⟩ := bind_eq_ok.mp hfb
    obtain ⟨samples, -, hrest⟩ := bind_eq_ok.mp hrest
    obtain ⟨ratios, hratios, -⟩ := bind_eq_ok.mp hrest
    have hfit := factorAverages_returns_iff.mp ⟨averages, haverages⟩
    exact ⟨hfit, (overallRatios_returns_iff (hshare hfit)).mp ⟨ratios, hratios⟩⟩
  · rintro ⟨hfit, hratios⟩
    refine (factorAverages_returns_iff.mpr hfit).bind fun _ => (countAll_returns hbroken).bind
      fun _ => ((overallRatios_returns_iff (hshare hfit)).mpr hratios).bind fun _ =>
      (returns_mapM.mpr fun g hg => ?_).bind fun _ => returns_pure _
    have hgroup : g.2.Sublist ((broken rows).filter ResultRow.signalEmitted) :=
      Sql.sublist_of_mem_groupBy (Sql.mem_orderBy.mp hg)
    have hpart : g.2.Sublist (broken rows) := hgroup.trans List.filter_sublist
    exact (factorAverages_returns_iff.mpr (hfit.subset hpart.subset)).bind fun _ =>
      (countAll_returns (hbroken.sublist hpart)).bind fun _ => returns_pure _

/-! ### The patterns of time -/

/-- Each value of `key` that has a row has one with a score. -/
def ScoredBy (key : ResultRow → ℤ) (rows : List ResultRow) : Prop :=
  ∀ r ∈ rows, ∃ s ∈ rows, key s = key r ∧ s.scoreTotal.isSome

theorem avgScore_ne_none : avgScore rows ≠ none ↔ ∃ r ∈ rows, r.scoreTotal.isSome := by
  rw [avgScore, Ne, Option.map_eq_none_iff, Sql.avg_eq_none, scores]
  constructor
  · intro h
    obtain ⟨n, hn⟩ := List.exists_mem_of_ne_nil _ h
    obtain ⟨r, hr, hscore⟩ := List.mem_filterMap.mp hn
    exact ⟨r, hr, by rw [hscore]; rfl⟩
  · rintro ⟨r, hr, hscore⟩
    obtain ⟨n, hn⟩ := Option.isSome_iff_exists.mp hscore
    exact List.ne_nil_of_mem (List.mem_filterMap.mpr ⟨r, hr, hn⟩)

theorem pattern_returns_iff {g : ℤ × List ResultRow} (h : Few g.2) :
    Returns (pattern g) ↔ ∃ r ∈ g.2, r.scoreTotal.isSome := by
  have hfloat : Returns (float (avgScore g.2)) ↔ ∃ r ∈ g.2, r.scoreTotal.isSome :=
    float_returns_iff.trans avgScore_ne_none
  constructor
  · rintro ⟨p, hp⟩
    obtain ⟨total, -, hrest⟩ := bind_eq_ok.mp hp
    obtain ⟨signals, -, hrest⟩ := bind_eq_ok.mp hrest
    obtain ⟨score, hscore, -⟩ := bind_eq_ok.mp hrest
    exact hfloat.mp ⟨score, hscore⟩
  · intro hscored
    exact (countAll_returns h).bind fun _ => (count_returns h _).bind fun _ =>
      (hfloat.mpr hscored).bind fun _ => returns_pure _

/-- Each group has a row with a score. -/
theorem scoredBy_iff (key : ResultRow → ℤ) (rows : List ResultRow) :
    ScoredBy key rows ↔ ∀ g ∈ byNumber key rows, ∃ r ∈ g.2, r.scoreTotal.isSome := by
  constructor
  · intro h g hg
    have hgroup := Sql.mem_orderBy.mp hg
    obtain ⟨r, hr⟩ := List.exists_mem_of_ne_nil _ (Sql.mem_groupBy.mp hgroup).1
    obtain ⟨hrow, hkey⟩ := (Sql.mem_group hgroup).mp hr
    obtain ⟨s, hs, hsame, hscore⟩ := h r hrow
    exact ⟨s, (Sql.mem_group hgroup).mpr ⟨hs, hsame.trans hkey⟩, hscore⟩
  · intro h r hr
    have hgroup : (key r, rows.filter fun s => key s = key r) ∈ Sql.groupBy key rows :=
      Sql.groupBy_of_mem hr
    obtain ⟨s, hs, hscore⟩ := h _ (Sql.mem_orderBy.mpr hgroup)
    obtain ⟨hrow, hkey⟩ := (Sql.mem_group hgroup).mp hs
    exact ⟨s, hrow, hkey, hscore⟩

theorem patterns_return_iff (h : Few rows) (key : ResultRow → ℤ) :
    Returns ((byNumber key rows).mapM pattern) ↔ ScoredBy key rows := by
  rw [returns_mapM, scoredBy_iff]
  exact forall₂_congr fun g hg => pattern_returns_iff (h.group hg)

theorem dowName_returns {n : ℤ} (h0 : 0 ≤ n) (h7 : n < 7) : Returns (dowName n) := by
  have hlt : n.toNat < dowNames.length := by
    show n.toNat < 7
    omega
  exact ⟨dowNames[n.toNat], by rw [dowName, List.getElem?_eq_getElem hlt]⟩

/-- The day of the week is that of the date. -/
theorem ScoredBy.dow (h : ScoredBy (day a) rows) : ScoredBy (dow a) rows := by
  intro r hr
  obtain ⟨s, hs, hsame, hscore⟩ := h r hr
  exact ⟨s, hs, by rw [Analyze.dow, hsame]; rfl, hscore⟩

theorem temporalPatterns_returns_iff (h : Few rows) :
    Returns (temporalPatterns a rows) ↔ ScoredBy (hour a) rows ∧ ScoredBy (day a) rows := by
  constructor
  · rintro ⟨t, ht⟩
    obtain ⟨hours, hhours, hrest⟩ := bind_eq_ok.mp ht
    obtain ⟨dows, -, hrest⟩ := bind_eq_ok.mp hrest
    obtain ⟨days, hdays, -⟩ := bind_eq_ok.mp hrest
    exact ⟨(patterns_return_iff h _).mp ⟨hours, hhours⟩, (patterns_return_iff h _).mp ⟨days, hdays⟩⟩
  · rintro ⟨hhour, hday⟩
    refine ((patterns_return_iff h _).mpr hhour).bind fun _ =>
      (returns_mapM.mpr fun g hg => ?_).bind fun _ =>
      ((patterns_return_iff h _).mpr hday).bind fun _ => returns_pure _
    have hgroup := Sql.mem_orderBy.mp hg
    obtain ⟨r, hr⟩ := List.exists_mem_of_ne_nil _ (Sql.mem_groupBy.mp hgroup).1
    have hkey : Analyze.dow a r = g.1 := ((Sql.mem_group hgroup).mp hr).2
    have hdow : 0 ≤ g.1 ∧ g.1 < 7 := by
      rw [← hkey, Analyze.dow]
      omega
    exact (dowName_returns hdow.1 hdow.2).bind fun _ =>
      ((pattern_returns_iff (h.group hg)).mpr ((scoredBy_iff _ rows).mp hday.dow g hg)).bind
        fun _ => returns_pure _

/-! ### The report -/

/-- There are few enough rows; each hour of the day and each date that has a row has one with a
score; the factors of the passed tokens are integers; and each factor is in a passed row with a
positive score. -/
structure Reportable (a : ScannerAnalyzer) (rows : List ResultRow) : Prop where
  few : Few rows
  hours : ScoredBy (hour a) rows
  days : ScoredBy (day a) rows
  factors : FactorsFit (broken rows)
  ratios : RatiosExist rows

theorem analyze_returns_of_rows (a : ScannerAnalyzer) (stored : List ResultRow) :
    Returns (analyze a stored) ↔ Reportable a (period a stored) := by
  constructor
  · rintro ⟨report, hreport⟩
    obtain ⟨o, ho, hrest⟩ := bind_eq_ok.mp hreport
    obtain ⟨filter, -, hrest⟩ := bind_eq_ok.mp hrest
    obtain ⟨distribution, -, hrest⟩ := bind_eq_ok.mp hrest
    obtain ⟨signals, -, hrest⟩ := bind_eq_ok.mp hrest
    obtain ⟨factors, hfactors, hrest⟩ := bind_eq_ok.mp hrest
    obtain ⟨chains, -, hrest⟩ := bind_eq_ok.mp hrest
    obtain ⟨patterns, hpatterns, -⟩ := bind_eq_ok.mp hrest
    have hfew := overview_returns_iff.mp ⟨o, ho⟩
    obtain ⟨hfit, hratios⟩ := (factorBreakdown_returns_iff hfew).mp ⟨factors, hfactors⟩
    obtain ⟨hhours, hdays⟩ := (temporalPatterns_returns_iff hfew).mp ⟨patterns, hpatterns⟩
    exact ⟨hfew, hhours, hdays, hfit, hratios⟩
  · rintro ⟨hfew, hhours, hdays, hfit, hratios⟩
    exact (overview_returns_iff.mpr hfew).bind fun _ => (filterAnalysis_returns hfew).bind fun _ =>
      (scoreDistribution_returns hfew).bind fun _ => (signalAnalysis_returns hfew).bind fun _ =>
      ((factorBreakdown_returns_iff hfew).mpr ⟨hfit, hratios⟩).bind fun _ =>
      (chainComparison_returns hfew).bind fun _ =>
      ((temporalPatterns_returns_iff hfew).mpr ⟨hhours, hdays⟩).bind fun _ =>
      (tokenSpotlight_returns hfew).bind fun _ => (cooldownAnalysis_returns hfew).bind fun _ =>
      (thresholdSensitivity_returns hfew).bind fun _ => returns_pure _

/-- Over a table of such events `analyze` returns a report exactly when its rows are reportable. -/
theorem analyze_returns_iff (a : ScannerAnalyzer) (events : List TokenProcessed) :
    (∃ report, analyze a (table events) = .ok report) ↔ Reportable a (period a (table events)) :=
  analyze_returns_of_rows a (table events)

/-- A token that was filtered out. -/
def filteredEvent : TokenProcessed where
  chain := "sol"
  interval := "1m"
  scannedAt := 0
  address := "A"
  symbol := "A"
  filterPassed := false
  filterReason := "honeypot"
  scoreTotal := none
  scoreBreakdown := none
  signalEmitted := false
  signalLevel := none
  cooldownSkipped := false

/-- When every token was filtered out there is no report. -/
theorem analyze_raises : ¬∀ (a : ScannerAnalyzer) (events : List TokenProcessed),
    ∃ report, analyze a (table events) = .ok report := by
  intro h
  have hreturns : Returns (analyze ⟨0, 0, fun _ _ => true⟩ (table [filteredEvent])) := h _ _
  obtain ⟨r, hr, -⟩ := ((analyze_returns_of_rows _ _).mp hreturns).ratios "smart_money" (by decide)
  have hnone : shareRows (period ⟨0, 0, fun _ _ => true⟩ (table [filteredEvent])) = [] := by
    decide +kernel
  rw [hnone] at hr
  cases hr

end ChainMonitor.Analyze
