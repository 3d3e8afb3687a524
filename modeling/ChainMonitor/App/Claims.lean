import ChainMonitor.App.PipelineCalls

/-! Who is given a window of `pipeline_runs`. The register is the table with what each call has been
granted; a step of the calls either rewrites rows of the register or grants one row. -/

namespace ChainMonitor.PipelineCalls

open ProofKit PipelineService

variable {ι κ φ : Type*} [DecidableEq κ] {services : ι → Service} {hashtext : String → ℤ}
  {s s' : State ι κ φ} {a : Act ι κ φ} {k : κ} {c : Call ι φ} {now : ℤ} {runId : String}

/-! ### The register -/

/-- A row that is not a replay stands for the window. -/
def Taken (w : String × String × ℤ) (table : PipelineRuns) : Prop :=
  ∃ r ∈ table.rows, r.trigger ≠ .replay ∧ window r.run.claim = w

/-- What each call has claimed, and the trigger of the row. -/
def State.grants (s : State ι κ φ) (k : κ) : Option (Claim × Trigger) :=
  (s.calls k).bind fun c => c.granted.map fun claim => (claim, c.entry.trigger)

omit [DecidableEq κ] in
theorem State.grants_eq (hk : s.calls k = some c) :
    s.grants k = c.granted.map fun claim => (claim, c.entry.trigger) := by
  simp [grants, hk]

omit [DecidableEq κ] in
theorem State.grants_eq_some {claim : Claim} {trigger : Trigger} :
    s.grants k = some (claim, trigger) ↔
      ∃ c, s.calls k = some c ∧ c.granted = some claim ∧ c.entry.trigger = trigger := by
  simp [grants, Option.bind_eq_some_iff]

theorem State.grants_update (hcalls : s'.calls = Function.update s.calls k (some c)) :
    s'.grants = Function.update s.grants k
      (c.granted.map fun claim => (claim, c.entry.trigger)) := by
  funext j
  by_cases hj : j = k
  · subst hj
    simp [grants, hcalls]
  · simp [grants, hcalls, hj]

theorem granted_of_phase (h : Call.Valid services c) (hne : c.phase ≠ .crashed)
    (hphase : c.phase.hasRun = false) : c.granted = none := by
  have hrun := h.hasRun hne
  rw [hphase, Option.isSome_eq_false_iff, Option.isNone_iff_eq_none] at hrun
  simp [Call.granted, hrun]

/-- A step grants nothing, or it grants one new row to a call that had none. -/
theorem grants_of_moves (hv : State.Valid services s) (h : Moves services s now s') :
    s'.grants = s.grants ∧ Rewrites s.table s'.table ∨
      ∃ k claim trigger, s.grants k = none ∧ Fresh claim.runId s.table ∧
        s.table.insert? (startedRow claim trigger now) = some s'.table ∧
        s'.grants = Function.update s.grants k (some (claim, trigger)) := by
  cases h with
  | begins hk hrun htable hcalls =>
    refine .inl ⟨?_, htable ▸ .refl _⟩
    rw [State.grants_update hcalls, Function.update_eq_self_iff]
    simp [Call.granted, State.grants, hrun, hk]
  | goesOn hk hc htable hcalls =>
    refine .inl ⟨?_, htable⟩
    rw [State.grants_update hcalls, Function.update_eq_self_iff, State.grants_eq hk, hc.granted,
      hc.entry]
  | @granted k c runId trigger phase hk hp hfresh hinsert hcalls =>
    have hvalid := hv k c hk
    have htrigger : trigger = c.entry.trigger := by
      rcases hp with ⟨-, h⟩ | ⟨hphase, h⟩
      · exact h
      · exact h.trans (hvalid.replay (by rw [hphase]; rfl)).symm
    have hnone : c.granted = none := by
      rcases hp with ⟨hphase, -⟩ | ⟨hphase, -⟩
      · exact granted_of_phase hvalid (by simp [hphase]) (by rw [hphase]; rfl)
      · exact granted_of_phase hvalid (by simp [hphase]) (by rw [hphase]; rfl)
    refine .inr ⟨k, c.claim services runId, trigger, ?_, hfresh, hinsert, ?_⟩
    · simp [State.grants_eq hk, hnone]
    · rw [State.grants_update hcalls, htrigger]
      rfl
  | passes hs => exact .inl ⟨by rw [hs], by rw [hs]; exact .refl _⟩

section Rows

variable {w : String × String × ℤ} {table table' : PipelineRuns} {claim : Claim}
  {trigger : Trigger}

theorem Rewrites.taken_iff (h : Rewrites table table') : Taken w table' ↔ Taken w table := by
  obtain ⟨f, hrows, hf⟩ := h
  simp only [Taken, hrows, List.mem_map]
  constructor
  · rintro ⟨_, ⟨r, hr, rfl⟩, htrigger, hw⟩
    exact ⟨r, hr, (hf r).2.1 ▸ htrigger, (hf r).1 ▸ hw⟩
  · rintro ⟨r, hr, htrigger, hw⟩
    exact ⟨f r, ⟨r, hr, rfl⟩, (hf r).2.1 ▸ htrigger, (hf r).1 ▸ hw⟩

theorem Rewrites.exists_claim (h : Rewrites table table')
    (hrow : ∃ r ∈ table.rows, r.run.claim = claim ∧ r.trigger = trigger) :
    ∃ r ∈ table'.rows, r.run.claim = claim ∧ r.trigger = trigger := by
  obtain ⟨f, hrows, hf⟩ := h
  obtain ⟨r, hr, hclaim, htrigger⟩ := hrow
  rw [hrows]
  exact ⟨f r, List.mem_map_of_mem hr, (hf r).1.trans hclaim, (hf r).2.1.trans htrigger⟩

theorem taken_of_insert? (h : table.insert? (startedRow claim trigger now) = some table') :
    Taken w table' ↔ Taken w table ∨ trigger ≠ .replay ∧ window claim = w := by
  simp only [Taken, UniqueRows.mem_of_insert? h]
  constructor
  · rintro ⟨r, hr | rfl, htrigger, hw⟩
    · exact .inl ⟨r, hr, htrigger, hw⟩
    · exact .inr ⟨htrigger, hw⟩
  · rintro (⟨r, hr, htrigger, hw⟩ | ⟨htrigger, hw⟩)
    · exact ⟨r, .inl hr, htrigger, hw⟩
    · exact ⟨_, .inr rfl, htrigger, hw⟩

/-- With a fresh id, an insert is refused only by a row for the same window. A replay is never
refused. -/
theorem insert?_eq_none_iff (trigger : Trigger) (now : ℤ) (hfresh : Fresh claim.runId table) :
    table.insert? (startedRow claim trigger now) = none ↔
      trigger ≠ .replay ∧ Taken (window claim) table := by
  rw [UniqueRows.insert?_eq_none]
  constructor
  · rintro ⟨r, hr, hid | ⟨hreplay, htrigger, hw⟩⟩
    · exact absurd hid (hfresh r hr)
    · exact ⟨htrigger, r, hr, hreplay, hw⟩
  · rintro ⟨htrigger, r, hr, hreplay, hw⟩
    exact ⟨r, hr, .inr ⟨hreplay, htrigger, hw⟩⟩

end Rows

/-! ### What the register keeps -/

/-- Every grant has its row, no two grants share an id, and a window is taken by a row of the first
table or by a grant that is not a replay's. -/
structure Register (first : PipelineRuns) (table : PipelineRuns)
    (grants : κ → Option (Claim × Trigger)) : Prop where
  row : ∀ k claim trigger, grants k = some (claim, trigger) →
    ∃ r ∈ table.rows, r.run.claim = claim ∧ r.trigger = trigger
  distinct : ∀ j k claim claim' trigger trigger', grants j = some (claim, trigger) →
    grants k = some (claim', trigger') → claim.runId = claim'.runId → j = k
  taken : ∀ w, Taken w table ↔ Taken w first ∨
    ∃ k claim trigger, grants k = some (claim, trigger) ∧ trigger ≠ .replay ∧ window claim = w

section Register

variable {first table table' : PipelineRuns} {grants : κ → Option (Claim × Trigger)}
  {claim : Claim} {trigger : Trigger}

omit [DecidableEq κ] in
theorem register_init (first : PipelineRuns) :
    Register first first fun _ : κ => (none : Option (Claim × Trigger)) where
  row _ _ _ h := by cases h
  distinct _ _ _ _ _ _ h := by cases h
  taken w := by simp

omit [DecidableEq κ] in
theorem Register.rewrite (h : Register first table grants) (ht : Rewrites table table') :
    Register first table' grants where
  row k claim trigger hk := ht.exists_claim (h.row k claim trigger hk)
  distinct := h.distinct
  taken w := ht.taken_iff.trans (h.taken w)

theorem Register.grant (h : Register first table grants) (hk : grants k = none)
    (hfresh : Fresh claim.runId table)
    (hinsert : table.insert? (startedRow claim trigger now) = some table') :
    Register first table' (Function.update grants k (some (claim, trigger))) where
  row j claim' trigger' hj := by
    rcases update_eq_some.mp hj with ⟨-, heq⟩ | ⟨-, hj⟩
    · cases heq
      exact ⟨_, (UniqueRows.mem_of_insert? hinsert).mpr (.inr rfl), rfl, rfl⟩
    · obtain ⟨r, hr, hrow⟩ := h.row j claim' trigger' hj
      exact ⟨r, (UniqueRows.mem_of_insert? hinsert).mpr (.inl hr), hrow⟩
  distinct i j claim₁ claim₂ trigger₁ trigger₂ hi hj hid := by
    -- an old grant has a row, whose id is not the one that was drawn
    have hold : ∀ l claim' trigger', grants l = some (claim', trigger') →
        claim'.runId ≠ claim.runId := by
      intro l claim' trigger' hl
      obtain ⟨r, hr, rfl, -⟩ := h.row l claim' trigger' hl
      exact hfresh r hr
    rcases update_eq_some.mp hi with ⟨rfl, hnew⟩ | ⟨-, hi'⟩
    · rcases update_eq_some.mp hj with ⟨rfl, -⟩ | ⟨-, hj'⟩
      · rfl
      · cases hnew
        exact absurd hid.symm (hold j claim₂ trigger₂ hj')
    · rcases update_eq_some.mp hj with ⟨rfl, hnew⟩ | ⟨-, hj'⟩
      · cases hnew
        exact absurd hid (hold i claim₁ trigger₁ hi')
      · exact h.distinct i j claim₁ claim₂ trigger₁ trigger₂ hi' hj' hid
  taken w := by
    rw [taken_of_insert? hinsert, h.taken w, or_assoc]
    refine or_congr_right ?_
    constructor
    · rintro (⟨j, claim', trigger', hj, hrest⟩ | hnew)
      · have hjk : j ≠ k := by
          rintro rfl
          rw [hk] at hj
          cases hj
        exact ⟨j, claim', trigger', update_eq_some.mpr (.inr ⟨hjk, hj⟩), hrest⟩
      · exact ⟨k, claim, trigger, Function.update_self .., hnew⟩
    · rintro ⟨j, claim', trigger', hj, hrest⟩
      rcases update_eq_some.mp hj with ⟨-, heq⟩ | ⟨-, hj⟩
      · cases heq
        exact .inr hrest
      · exact .inl ⟨j, claim', trigger', hj, hrest⟩

omit [DecidableEq κ] in
/-- Two grants for one window that are not replays are one. -/
theorem Register.eq_of_window (h : Register first table grants) {j k : κ} {claim claim' : Claim}
    {trigger trigger' : Trigger} (hj : grants j = some (claim, trigger))
    (hk : grants k = some (claim', trigger')) (htrigger : trigger ≠ .replay)
    (htrigger' : trigger' ≠ .replay) (hw : window claim = window claim') : j = k := by
  obtain ⟨r, hr, rfl, rfl⟩ := h.row j claim trigger hj
  obtain ⟨r', hr', rfl, rfl⟩ := h.row k claim' trigger' hk
  have hrow : r = r' := UniqueRows.eq_of_clash hr hr' (.inr ⟨htrigger, htrigger', hw⟩)
  exact h.distinct j k _ _ _ _ hj hk (by rw [hrow])

end Register

/-! ### The calls of a window -/

/-- What a call asks for: its chain, its strategy version, and the start of its UTC minute. -/
def Call.asked (services : ι → Service) (c : Call ι φ) : String × String × ℤ :=
  ((services c.service).chainId, (services c.service).strategyVersion,
    microsecondsPerMinute * c.utcMinute services)

theorem Call.Valid.window_claim (h : Call.Valid services c) (runId : String) :
    window (c.claim services runId) = c.asked services := by
  simp [window, Call.claim, Call.asked, h.runTs_eq]

theorem Call.Valid.window_of_granted (h : Call.Valid services c) {claim : Claim}
    (hclaim : c.granted = some claim) : window claim = c.asked services := by
  rw [h.claim claim hclaim]
  exact h.window_claim _

theorem Call.granted_isSome : c.granted.isSome = c.run.isSome := by
  simp [Call.granted]

/-- The call has been told that its window is taken. -/
def Call.Skipped (services : ι → Service) (c : Call ι φ) : Prop :=
  ∃ skippedId, c.phase =
    .returned ((services c.service).refusal c.entry c.runTs skippedId)

/-- What holds of every state: the register is in order, and who is told that a window is taken is
told the truth. -/
structure OneClaim (services : ι → Service) (first : PipelineRuns) (s : State ι κ φ) : Prop where
  valid : State.Valid services s
  register : Register first s.table s.grants
  skipped : ∀ k c, s.calls k = some c → c.entry.trigger ≠ .replay →
    ∀ reply, c.phase = .returned reply → c.Skipped services ∧ Taken (c.asked services) s.table

omit [DecidableEq κ] in
theorem oneClaim_init (first : PipelineRuns) :
    OneClaim services first (.init first : State ι κ φ) where
  valid _ _ h := by cases h
  register := register_init first
  skipped _ _ h := by cases h

theorem Register.step {first : PipelineRuns} (h : Register first s.table s.grants)
    (hv : State.Valid services s) (hs : Moves services s now s') :
    Register first s'.table s'.grants := by
  rcases grants_of_moves hv hs with ⟨hgrants, htable⟩ | ⟨k, claim, trigger, hk, hfresh, hins, hg⟩
  · rw [hgrants]
    exact h.rewrite htable
  · rw [hg]
    exact h.grant hk hfresh hins

theorem taken_of_moves {w : String × String × ℤ} (hs : Moves services s now s')
    (h : Taken w s.table) : Taken w s'.table := by
  cases hs with
  | begins _ _ htable => rwa [htable]
  | goesOn _ _ htable => exact htable.taken_iff.mpr h
  | granted _ _ _ hinsert => exact (taken_of_insert? hinsert).mpr (.inl h)
  | passes hs => rwa [hs]

/-- A call that stands at `returned` after a step stood there before it, or is a replay, or has just
found its window taken. -/
theorem skipped_of_fires (hv : State.Valid services s) (hs : Fires services hashtext s now a s')
    (hk : s'.calls k = some c) (htrigger : c.entry.trigger ≠ .replay) {reply : Reply}
    (hreply : c.phase = .returned reply) :
    s.calls k = some c ∨ c.Skipped services ∧ Taken (c.asked services) s.table := by
  have hother : ∀ {j : κ} {d : Call ι φ} {t : State ι κ φ}, t.calls = s.calls →
      (t.put j d).calls k = some c → s.calls k = some c ∨ k = j ∧ c = d := by
    intro j d t ht hput
    rcases State.put_calls_eq_some.mp hput with hnew | ⟨-, hold⟩
    · exact .inr hnew
    · exact .inl (ht ▸ hold)
  cases hs with
  | @begins j service entry hj =>
    rcases hother rfl hk with hold | ⟨-, rfl⟩
    · exact .inl hold
    · rcases begin_phase (services service) entry now with hphase | ⟨hreplay, -⟩
      · rw [hphase] at hreply
        cases hreply
      · exact absurd hreplay htrigger
  | refused hj hp hfresh hinsert =>
    rcases hother rfl hk with hold | ⟨rfl, rfl⟩
    · exact .inl hold
    · refine .inr ⟨⟨_, rfl⟩, ?_⟩
      obtain ⟨-, htaken⟩ := (insert?_eq_none_iff _ _ hfresh).mp hinsert
      rw [(hv _ _ hj).window_claim] at htaken
      exact htaken
  | lockHeld hj hp | raises hj hp =>
    rcases hother rfl hk with hold | ⟨rfl, rfl⟩
    · exact .inl hold
    · exact absurd ((hv _ _ hj).replay (by rw [hp]; rfl)) htrigger
  | starts | locks | tooMany | counts | inserts | unlocks | crashes =>
    rcases hother rfl hk with hold | ⟨rfl, rfl⟩
    · exact .inl hold
    · cases hreply
  | runs hj hp =>
    rcases hother rfl hk with hold | ⟨rfl, rfl⟩
    · exact .inl hold
    · exact absurd (hp.symm.trans hreply) (by simp)
  | passes => exact .inl hk

theorem OneClaim.step {first : PipelineRuns} (h : OneClaim services first s)
    (hs : PipelineCalls.step services hashtext s now a = some s') :
    OneClaim services first s' := by
  have hfires := fires_of_step hs
  have hmoves := moves_of_fires hfires
  refine ⟨valid_step h.valid hfires, h.register.step h.valid hmoves, ?_⟩
  intro k c hk htrigger reply hreply
  rcases skipped_of_fires h.valid hfires hk htrigger hreply with hold | ⟨hskipped, htaken⟩
  · obtain ⟨hskipped, htaken⟩ := h.skipped k c hold htrigger reply hreply
    exact ⟨hskipped, taken_of_moves hmoves htaken⟩
  · exact ⟨hskipped, taken_of_moves hmoves htaken⟩

variable {first : PipelineRuns} {clock : ℤ} {as : List (Stamped ℤ (Act ι κ φ))}
  {t : Clocked ℤ (State ι κ φ)}

theorem oneClaim_of_run
    (h : exec (clocked (step services hashtext)) ⟨clock, .init first⟩ as = some t) :
    OneClaim services first t.inner := by
  refine exec_invariant (fun t => OneClaim services first t.inner) (oneClaim_init first) ?_ h
  intro s a s' hs hstep
  obtain ⟨-, -, hinner⟩ := clocked_eq_some.mp hstep
  exact hs.step hinner

omit [DecidableEq κ] in
/-- A call that is not a replay and has no run stands before its insert, has crashed, or has been
told that its window is taken. -/
theorem OneClaim.phase_of_none (h : OneClaim services first s) (hk : s.calls k = some c)
    (htrigger : c.entry.trigger ≠ .replay) (hrun : c.run = none) :
    c.phase = .claiming ∨ c.phase = .crashed ∨
      c.Skipped services ∧ Taken (c.asked services) s.table := by
  have hvalid := h.valid k c hk
  have hreplay := fun hp => htrigger (hvalid.replay hp)
  have hnone := hvalid.hasRun
  rw [hrun] at hnone
  cases hphase : c.phase with
  | claiming => exact .inl rfl
  | crashed => exact .inr (.inl rfl)
  | returned reply => exact .inr (.inr (h.skipped k c hk htrigger reply hphase))
  | executing =>
    have := hnone (by simp [hphase])
    simp [hphase, Phase.hasRun] at this
  | locking | counting | inserting | unlocking => exact absurd (by rw [hphase]; rfl) hreplay

theorem step_tryStart (hk : s.calls k = some c) (hp : c.phase = .claiming)
    (hfresh : Fresh runId s.table) (skippedId : String) :
    step services hashtext s now (.tryStart k runId skippedId) =
      match s.table.insert? (startedRow (c.claim services runId) c.entry.trigger now) with
      | some table => some ({ s with table }.put k (c.started services runId .executing))
      | none => some (s.put k { c with
          phase := .returned ((services c.service).refusal c.entry c.runTs skippedId) }) :=
  (State.at?_of_phase hk hp _).trans (if_pos hfresh)

/-- Whether a call that is not a replay is given its window. -/
theorem OneClaim.tryStart (h : OneClaim services first s) (hk : s.calls k = some c)
    (htrigger : c.entry.trigger ≠ .replay) (hp : c.phase = .claiming)
    (hfresh : Fresh runId s.table) (now : ℤ) (skippedId : String) :
    ∃ s' c', PipelineCalls.step services hashtext s now (.tryStart k runId skippedId) = some s' ∧
      s'.calls k = some c' ∧ (c'.run.isSome ↔ ¬Taken (c.asked services) s.table) := by
  have hfresh' : Fresh (c.claim services runId).runId s.table := hfresh
  have hnone := insert?_eq_none_iff c.entry.trigger now hfresh'
  rw [(h.valid k c hk).window_claim, and_iff_right htrigger] at hnone
  rw [step_tryStart hk hp hfresh]
  cases hinsert : s.table.insert? (startedRow (c.claim services runId) c.entry.trigger now) with
  | none =>
    refine ⟨_, _, rfl, State.put_calls_self, ?_⟩
    have hrun := (h.valid k c hk).hasRun (by simp [hp])
    simp [hrun, hp, Phase.hasRun, hnone.mp hinsert]
  | some table =>
    refine ⟨_, _, rfl, State.put_calls_self, ?_⟩
    have hfree : ¬Taken (c.asked services) s.table := fun htaken => by
      rw [hnone.mpr htaken] at hinsert
      cases hinsert
    simp [Call.started, hfree]

omit [DecidableEq κ] in
/-- Two calls that are given runs for one window are one call. -/
theorem OneClaim.eq_of_asked (h : OneClaim services first s) {j k : κ} {c d : Call ι φ}
    (hj : s.calls j = some c) (hk : s.calls k = some d) (htc : c.entry.trigger ≠ .replay)
    (htd : d.entry.trigger ≠ .replay) (hasked : c.asked services = d.asked services)
    (hc : c.run.isSome) (hd : d.run.isSome) : j = k := by
  rw [← Call.granted_isSome] at hc hd
  obtain ⟨claim, hclaim⟩ := Option.isSome_iff_exists.mp hc
  obtain ⟨claim', hclaim'⟩ := Option.isSome_iff_exists.mp hd
  refine h.register.eq_of_window (State.grants_eq_some.mpr ⟨c, hj, hclaim, rfl⟩)
    (State.grants_eq_some.mpr ⟨d, hk, hclaim', rfl⟩) htc htd ?_
  rw [(h.valid j c hj).window_of_granted hclaim, (h.valid k d hk).window_of_granted hclaim', hasked]

omit [DecidableEq κ] in
/-- A window is taken by a row of the first table or by the run of a call. -/
theorem OneClaim.taken_iff (h : OneClaim services first s) (w : String × String × ℤ) :
    ¬Taken w s.table ↔ ¬Taken w first ∧
      ∀ j d, s.calls j = some d → d.entry.trigger ≠ .replay → d.asked services = w →
        d.run = none := by
  rw [h.register.taken, not_or]
  refine and_congr_right fun _ => ?_
  constructor
  · intro hnot j d hj htd hasked
    by_contra hrun
    obtain ⟨⟨claim, r⟩, hr⟩ := Option.ne_none_iff_exists'.mp hrun
    have hclaim : d.granted = some claim := by simp [Call.granted, hr]
    refine hnot ⟨j, claim, _, State.grants_eq_some.mpr ⟨d, hj, hclaim, rfl⟩, htd, ?_⟩
    rw [(h.valid j d hj).window_of_granted hclaim, hasked]
  · rintro hall ⟨j, claim, trigger, hgrant, htd, hw⟩
    obtain ⟨d, hj, hclaim, rfl⟩ := State.grants_eq_some.mp hgrant
    rw [(h.valid j d hj).window_of_granted hclaim] at hw
    have hrun := hall j d hj htd hw
    simp [Call.granted, hrun] at hclaim

/-- Of the calls for one chain, strategy version and UTC minute that are not replays, one at most is
given a run. Each of the others that is past its insert, and has not crashed, has been skipped. Such
a call is given its window unless a row of the first table or the run of another such call stands
for it, whatever the replays have done. -/
theorem one_claim_per_window
    (h : exec (clocked (step services hashtext)) ⟨clock, .init first⟩ as = some t) :
    (∀ j k c d, t.inner.calls j = some c → t.inner.calls k = some d →
      c.entry.trigger ≠ .replay → d.entry.trigger ≠ .replay →
      (services c.service).chainId = (services d.service).chainId →
      (services c.service).strategyVersion = (services d.service).strategyVersion →
      c.utcMinute services = d.utcMinute services →
      c.run.isSome → d.run.isSome → j = k) ∧
    (∀ k c, t.inner.calls k = some c → c.entry.trigger ≠ .replay → c.run = none →
      c.phase = .claiming ∨ c.phase = .crashed ∨ c.Skipped services) ∧
    ∀ k c now runId skippedId, t.inner.calls k = some c → c.entry.trigger ≠ .replay →
      c.phase = .claiming → Fresh runId t.inner.table →
      ∃ s' c', step services hashtext t.inner now (.tryStart k runId skippedId) = some s' ∧
        s'.calls k = some c' ∧
        (c'.run.isSome ↔ ¬Taken (c.asked services) first ∧
          ∀ j d, t.inner.calls j = some d → d.entry.trigger ≠ .replay →
            d.asked services = c.asked services → d.run = none) := by
  have hone := oneClaim_of_run h
  refine ⟨?_, ?_, ?_⟩
  · intro j k c d hj hk htc htd hchain hversion hminute hc hd
    refine hone.eq_of_asked hj hk htc htd ?_ hc hd
    simp only [Call.asked, hchain, hversion, hminute]
  · intro k c hk htrigger hrun
    rcases hone.phase_of_none hk htrigger hrun with hp | hp | ⟨hp, -⟩
    · exact .inl hp
    · exact .inr (.inl hp)
    · exact .inr (.inr hp)
  · intro k c now runId skippedId hk htrigger hp hfresh
    obtain ⟨s', c', hstep, hk', hiff⟩ := hone.tryStart hk htrigger hp hfresh now skippedId
    exact ⟨s', c', hstep, hk', hiff.trans (hone.taken_iff _)⟩

/-- A service with the defaults of the settings, on a host in UTC. -/
def sampleService : Service where
  chainId := "bsc"
  strategyVersion := "bsc-mvp-v1"
  settings :=
    { gate := ⟨0, 0, 0⟩
      runTimeoutSeconds := 30
      replayMaxInFlightPerChain := 1
      replayMaxLookbackMinutes := 1440
      replayMaxFutureSkewSeconds := 60 }
  localOffset := fun _ => 0

/-- A manual run for 00:02:05 in UTC, and then the scheduler's claim for 02:02:10 in UTC+2. -/
def manualThenScheduler : List (Stamped ℤ (Act Unit Bool Unit)) :=
  [⟨0, .call false () (.runOnce .manual false (some ⟨125000000, some 0⟩))⟩,
    ⟨0, .tryStart false "0f" "1f"⟩,
    ⟨0, .call true () (.claimSchedulerWindow ⟨7330000000, some 7200000000⟩)⟩,
    ⟨0, .tryStart true "2f" "3f"⟩]

theorem one_claim_per_window_manualThenScheduler :
    ∃ t c d, exec (clocked (step (fun _ => sampleService) fun _ => 0)) ⟨0, .init .empty⟩
        manualThenScheduler = some t ∧
      t.inner.calls false = some c ∧ c.run.isSome ∧ t.inner.calls true = some d ∧
      (d.phase = .claiming ∨ d.phase = .crashed ∨ d.Skipped fun _ => sampleService) := by
  have h : exec (clocked (step (fun _ => sampleService) fun _ => 0)) ⟨0, .init .empty⟩
    manualThenScheduler = some _ := rfl
  refine ⟨_, _, _, h, rfl, rfl, rfl, ?_⟩
  exact (one_claim_per_window h).2.1 true _ rfl (by decide) rfl

/-- The claim of the scheduler ends with `None`, which is no summary. -/
theorem scheduler_skips_with_none :
    ¬∀ (as : List (Stamped ℤ (Act Unit Bool Unit))) (t : Clocked ℤ (State Unit Bool Unit)),
      exec (clocked (step (fun _ => sampleService) fun _ => 0)) ⟨0, .init .empty⟩ as = some t →
      ∀ k c, t.inner.calls k = some c → c.entry.trigger ≠ .replay → c.run = none →
        c.phase = .claiming ∨ c.phase = .crashed ∨
          ∃ summary, c.phase = .returned (.skipped summary) := by
  intro hall
  rcases hall manualThenScheduler _ rfl true _ rfl (by decide) rfl with h | h | ⟨summary, h⟩
  · cases h
  · cases h
  · cases h

end ChainMonitor.PipelineCalls
