import ChainMonitor.App.Claims
import ChainMonitor.ProofKit.Window

/-! The bound on the replays of a chain that are in flight. For a chain, the calls and the table
make up a quota: the load is the number of active replay rows, and a call has a permit from its
count to its insert. The advisory lock is what keeps others from holding a permit meanwhile. -/

namespace ChainMonitor.PipelineCalls

open ProofKit PipelineService

variable {ι κ φ : Type*} [DecidableEq κ] {services : ι → Service} {hashtext : String → ℤ}
  {s s' : State ι κ φ} {a : Act ι κ φ} {k : κ} {c : Call ι φ} {now clock : ℤ} {chainId : String}
  {cfg : Settings}

/-! ### The lock -/

/-- The phases inside `with replay_lock`. -/
def Phase.holdsLock : Phase → Bool
  | .counting | .inserting | .unlocking _ => true
  | _ => false

/-- A call inside the lock holds the lock of its chain. -/
def Locked (services : ι → Service) (hashtext : String → ℤ) (s : State ι κ φ) : Prop :=
  ∀ k c, s.calls k = some c → c.phase.holdsLock →
    s.locks (replayLock hashtext (services c.service).chainId) = some k

omit [DecidableEq κ] in
/-- Two calls for one chain are not inside the lock at once. -/
theorem Locked.eq (h : Locked services hashtext s) {j : κ} {d : Call ι φ}
    (hj : s.calls j = some d) (hk : s.calls k = some c) (hd : d.phase.holdsLock)
    (hc : c.phase.holdsLock)
    (hchain : (services d.service).chainId = (services c.service).chainId) : j = k := by
  have hlock := h j d hj hd
  rw [hchain, h k c hk hc] at hlock
  exact (Option.some.inj hlock).symm

theorem Locked.put {t : State ι κ φ} (h : Locked services hashtext s) (hcalls : t.calls = s.calls)
    (hothers : ∀ key j, j ≠ k → s.locks key = some j → t.locks key = some j)
    (hc : c.phase.holdsLock →
      t.locks (replayLock hashtext (services c.service).chainId) = some k) :
    Locked services hashtext (t.put k c) := by
  intro j d hj hd
  rcases State.put_calls_eq_some.mp hj with ⟨rfl, rfl⟩ | ⟨hjk, hj⟩
  · exact hc hd
  · exact hothers _ j hjk (h j d (hcalls ▸ hj) hd)

/-- A release takes no lock from another call. -/
theorem release_locks_of_ne {key : ℤ × ℤ} {j : κ} (hj : j ≠ k) (h : s.locks key = some j) :
    (s.release k).locks key = some j := by
  simp [State.release, h, hj]

theorem Locked.step (h : Locked services hashtext s)
    (hs : Fires services hashtext s now a s') : Locked services hashtext s' := by
  cases hs with
  | @begins k service entry hk =>
    refine h.put rfl (fun _ _ _ hl => hl) fun hlock => ?_
    rcases begin_phase (services service) entry now with hp | ⟨-, hp | ⟨e, hp⟩⟩
    · simp [hp, Phase.holdsLock] at hlock
    · simp [hp, Phase.holdsLock] at hlock
    · simp [hp, Phase.holdsLock] at hlock
  | starts | refused | lockHeld =>
    exact h.put rfl (fun _ _ _ hl => hl) (by simp [Phase.holdsLock, Call.started])
  | @locks k c hk hp hfree =>
    refine h.put rfl (fun key j _ hl => ?_) fun _ => Function.update_self ..
    rw [← hl]
    refine Function.update_of_ne ?_ ..
    rintro rfl
    rw [hfree] at hl
    cases hl
  | tooMany hk hp | counts hk hp | inserts hk hp =>
    have hlock := h _ _ hk (by rw [hp]; rfl)
    exact h.put rfl (fun _ _ _ hl => hl) fun _ => hlock
  | unlocks | raises | crashes =>
    exact h.put rfl (fun _ _ hne hl => release_locks_of_ne hne hl) (by simp [Phase.holdsLock])
  | runs hk hp =>
    exact h.put rfl (fun _ _ _ hl => hl) (by simp [hp, Phase.holdsLock])
  | passes => exact h

/-! ### The load -/

section Load

variable {table table' : PipelineRuns} {row : Row}

theorem isActiveReplay_iff {after : ℤ} : row.isActiveReplay chainId after ↔
    row.run.claim.chainId = chainId ∧ row.trigger = .replay ∧ row.run.status = .running ∧
      after ≤ row.startedAt := by
  simp [Row.isActiveReplay]

theorem count_anti (chainId : String) (cfg : Settings) (table : PipelineRuns)
    (h : clock ≤ now) :
    countActiveReplayRuns chainId (staleAfter cfg now) table ≤
      countActiveReplayRuns chainId (staleAfter cfg clock) table := by
  refine List.countP_mono_left fun r _ hr => ?_
  obtain ⟨hchain, htrigger, hstatus, hage⟩ := isActiveReplay_iff.mp hr
  refine isActiveReplay_iff.mpr ⟨hchain, htrigger, hstatus, ?_⟩
  unfold staleAfter at *
  omega

theorem Rewrites.count_le (h : Rewrites table table') (after : ℤ) :
    countActiveReplayRuns chainId after table' ≤ countActiveReplayRuns chainId after table := by
  obtain ⟨f, hrows, hf⟩ := h
  rw [countActiveReplayRuns, hrows, List.countP_map]
  refine List.countP_mono_left fun r _ hr => ?_
  obtain ⟨hclaim, htrigger, hage, hstatus⟩ := hf r
  simp only [Function.comp, isActiveReplay_iff, hclaim, htrigger, hage] at hr ⊢
  exact ⟨hr.1, hr.2.1, hstatus hr.2.2.1, hr.2.2.2⟩

theorem count_insert (chainId : String) (h : table.insert? row = some table') (after : ℤ) :
    countActiveReplayRuns chainId after table' = countActiveReplayRuns chainId after table +
      if row.isActiveReplay chainId after then 1 else 0 := by
  rw [countActiveReplayRuns, UniqueRows.rows_of_insert? h, List.countP_append,
    List.countP_singleton]
  rfl

end Load

/-! ### The quota of a chain -/

/-- The quota of a chain at a time. -/
def quota (services : ι → Service) (cfg : Settings) (chainId : String) (now : ℤ)
    (s : State ι κ φ) : Quota κ where
  load := countActiveReplayRuns chainId (staleAfter cfg now) s.table
  permitted := { k | ∃ c, s.calls k = some c ∧ (services c.service).chainId = chainId ∧
    c.phase = .inserting }

/-- A step that leaves a call without a permit gives nobody one. -/
theorem permitted_put {t : State ι κ φ} (hcalls : t.calls = s.calls)
    (hc : c.phase = .inserting → (services c.service).chainId ≠ chainId) :
    (quota services cfg chainId now (t.put k c)).permitted ⊆
      (quota services cfg chainId clock s).permitted := by
  rintro j ⟨d, hj, hchain, hd⟩
  rcases State.put_calls_eq_some.mp hj with ⟨-, rfl⟩ | ⟨-, hj⟩
  · exact absurd hchain (hc hd)
  · exact ⟨d, hcalls ▸ hj, hchain, hd⟩

/-- No call is a `run_once` with the trigger of a replay that is not forced, which would insert a
row without the lock. -/
def Act.Ordinary : Act ι κ φ → Prop
  | .call _ _ (.runOnce .replay false _) => False
  | _ => True

/-- The calls that wait for their insert outside the lock are no replays. -/
def Ordinary (s : State ι κ φ) : Prop :=
  ∀ k c, s.calls k = some c → c.phase = .claiming → c.entry.trigger ≠ .replay

theorem begin_claiming {svc : Service} {entry : Entry}
    (h : (svc.begin entry now).2 = .claiming) (htrigger : entry.trigger = .replay) :
    ∃ tsMinute, entry = .runOnce .replay false tsMinute := by
  have hnot : ∀ tsMinute, (svc.beginReplay tsMinute now).2 ≠ .claiming := by
    intro tsMinute hclaiming
    rcases beginReplay_phase svc tsMinute now with hp | ⟨e, hp⟩
    · rw [hp] at hclaiming
      cases hclaiming
    · rw [hp] at hclaiming
      cases hclaiming
  cases entry with
  | runOnce trigger force tsMinute =>
    cases force with
    | false => exact ⟨tsMinute, by rw [show trigger = .replay from htrigger]⟩
    | true => exact absurd h (hnot _)
  | claimSchedulerWindow tsMinute => cases htrigger
  | replay tsMinute => exact absurd h (hnot _)

theorem Ordinary.put {t : State ι κ φ} (h : Ordinary s) (hcalls : t.calls = s.calls)
    (hc : c.phase = .claiming → c.entry.trigger ≠ .replay) : Ordinary (t.put k c) := by
  intro j d hj hd
  rcases State.put_calls_eq_some.mp hj with ⟨-, rfl⟩ | ⟨-, hj⟩
  · exact hc hd
  · exact h j d (hcalls ▸ hj) hd

theorem Ordinary.step (h : Ordinary s) (ha : a.Ordinary)
    (hs : Fires services hashtext s now a s') : Ordinary s' := by
  cases hs with
  | begins hk =>
    refine h.put rfl fun hp htrigger => ?_
    obtain ⟨tsMinute, rfl⟩ := begin_claiming hp htrigger
    exact ha
  | starts | refused | lockHeld | locks | tooMany | counts | inserts | unlocks | raises
  | crashes => exact h.put rfl (by simp [Call.started])
  | runs hk hp => exact h.put rfl fun hclaiming => absurd (hp.symm.trans hclaiming) (by simp)
  | passes => exact h

/-- Each step of the calls is a step of the quota of each chain whose services share `cfg`. -/
theorem quota_step (hshared : ∀ i, (services i).chainId = chainId → (services i).settings = cfg)
    (hlocked : Locked services hashtext s) (hordinary : Ordinary s) (hclock : clock ≤ now)
    (hs : Fires services hashtext s now a s') :
    Quota.Step (replayLimit cfg).toNat (quota services cfg chainId clock s)
      (quota services cfg chainId now s') := by
  have hage := count_anti chainId cfg s.table hclock
  cases hs with
  | @begins k service entry hk =>
    refine .ease hage (permitted_put rfl fun hp => ?_)
    rcases begin_phase (services service) entry now with hbegin | ⟨-, hbegin | ⟨e, hbegin⟩⟩
    · exact absurd (hbegin.symm.trans hp) (by simp)
    · exact absurd (hbegin.symm.trans hp) (by simp)
    · exact absurd (hbegin.symm.trans hp) (by simp)
  | refused | lockHeld | locks | tooMany | unlocks | raises | crashes =>
    exact .ease hage (permitted_put rfl (by simp))
  | runs hk hp =>
    refine .ease (((rewrites_update _ _ _ _).count_le _).trans hage) (permitted_put rfl ?_)
    simp [hp]
  | starts hk hp hfresh hinsert =>
    refine .ease ?_ (permitted_put rfl (by simp [Call.started]))
    have hcount := count_insert chainId hinsert (staleAfter cfg now)
    have hnot := hordinary _ _ hk hp
    simp only [Row.isActiveReplay, startedRow, hnot, false_and, and_false, decide_false,
      Bool.false_eq_true, if_false, Nat.add_zero] at hcount
    exact hcount.le.trans hage
  | @counts k c hk hp hroom =>
    by_cases hchain : (services c.service).chainId = chainId
    · rw [hchain, hshared _ hchain] at hroom
      refine .permit ?_
      show countActiveReplayRuns chainId (staleAfter cfg now) s.table < (replayLimit cfg).toNat
      omega
    · exact .ease hage (permitted_put rfl fun _ => hchain)
  | @inserts k c runId table hk hp hfresh hinsert =>
    have hcount := count_insert chainId hinsert (staleAfter cfg now)
    by_cases hchain : (services c.service).chainId = chainId
    · refine .take ⟨k, c, hk, hchain, hp⟩ ?_ ?_
      · show countActiveReplayRuns chainId (staleAfter cfg now) table ≤ _
        rw [hcount]
        refine Nat.add_le_add hage ?_
        split <;> omega
      · refine Set.eq_empty_of_forall_notMem ?_
        rintro j ⟨d, hj, hd, hdp⟩
        rcases State.put_calls_eq_some.mp hj with ⟨-, rfl⟩ | ⟨hjk, hj⟩
        · cases hdp
        · exact hjk (hlocked.eq hj hk (by rw [hdp]; rfl) (by rw [hp]; rfl) (hd.trans hchain.symm))
    · refine .ease ?_ (permitted_put rfl fun _ => hchain)
      simp only [Row.isActiveReplay, startedRow, claimedRow, Call.claim, hchain, false_and,
        decide_false, Bool.false_eq_true, if_false, Nat.add_zero] at hcount
      exact hcount.le.trans hage
  | passes => exact .ease hage (subset_refl _)

/-! ### Runs -/

/-- What holds of every state that ordinary calls reach. -/
structure InFlight (services : ι → Service) (hashtext : String → ℤ) (cfg : Settings)
    (chainId : String) (t : Clocked ℤ (State ι κ φ)) : Prop where
  locked : Locked services hashtext t.inner
  ordinary : Ordinary t.inner
  within : Quota.Within (replayLimit cfg).toNat (quota services cfg chainId t.clock t.inner)

omit [DecidableEq κ] in
theorem inFlight_init {first : PipelineRuns}
    (hfirst : countActiveReplayRuns chainId (staleAfter cfg clock) first ≤ replayLimit cfg) :
    InFlight services hashtext cfg chainId (⟨clock, .init first⟩ : Clocked ℤ (State ι κ φ)) where
  locked _ _ h := by cases h
  ordinary _ _ h := by cases h
  within := by
    refine ⟨?_, ?_⟩
    · show countActiveReplayRuns chainId (staleAfter cfg clock) first ≤ (replayLimit cfg).toNat
      omega
    · rintro ⟨k, c, hk, -⟩
      cases hk

theorem InFlight.step {t t' : Clocked ℤ (State ι κ φ)} {a : Stamped ℤ (Act ι κ φ)}
    (hshared : ∀ i, (services i).chainId = chainId → (services i).settings = cfg)
    (h : InFlight services hashtext cfg chainId t) (ha : a.act.Ordinary)
    (hs : clocked (step services hashtext) t a = some t') :
    InFlight services hashtext cfg chainId t' := by
  obtain ⟨hclock, hnow, hstep⟩ := clocked_eq_some.mp hs
  have hfires := fires_of_step hstep
  refine ⟨h.locked.step hfires, h.ordinary.step ha hfires, ?_⟩
  rw [hnow]
  exact h.within.step (quota_step hshared h.locked h.ordinary hclock hfires)

variable {first : PipelineRuns} {as : List (Stamped ℤ (Act ι κ φ))}
  {t : Clocked ℤ (State ι κ φ)}

theorem inFlight_of_run
    (hshared : ∀ i, (services i).chainId = chainId → (services i).settings = cfg)
    (hfirst : countActiveReplayRuns chainId (staleAfter cfg clock) first ≤ replayLimit cfg)
    (hordinary : ∀ a ∈ as, a.act.Ordinary)
    (h : exec (clocked (step services hashtext)) ⟨clock, .init first⟩ as = some t) :
    InFlight services hashtext cfg chainId t := by
  refine exec_induction (fun _ t => InFlight services hashtext cfg chainId t)
    (inFlight_init hfirst) ?_ (meets_of_forall_mem fun a ha _ => hordinary a ha) h
  intro _ s a s' _ hs ha hstep
  exact hs.step hshared ha hstep

/-! ### Calls that are rejected -/

/-- The call that takes a step. -/
def Act.caller : Act ι κ φ → Option κ
  | .call k _ _ | .tryStart k _ _ | .lock k | .count k | .insert k _ | .unlock k | .run k _
  | .crash k => some k
  | .pass => none

/-- Only a call that has a run afterwards changes the table. -/
theorem table_of_fires (hs : Fires services hashtext s now a s') (ha : a.caller = some k) :
    s'.table = s.table ∨ s'.grants k ≠ none := by
  cases hs with
  | starts | inserts | runs =>
    cases ha
    refine .inr ?_
    rw [State.grants_eq State.put_calls_self]
    simp [Call.granted, Call.started]
  | begins | refused | lockHeld | locks | tooMany | counts | unlocks | raises | crashes
  | passes => exact .inl rfl

/-- A call keeps its run. -/
theorem grants_kept (hv : State.Valid services s) (hs : Moves services s now s')
    (h : s.grants k ≠ none) : s'.grants k ≠ none := by
  rcases grants_of_moves hv hs with ⟨hgrants, -⟩ | ⟨j, claim, trigger, hj, -, -, hgrants⟩
  · rwa [hgrants]
  · rw [hgrants]
    rwa [Function.update_of_ne]
    rintro rfl
    exact h hj

/-- A call that ends without a run has left the table as it was, at each of its steps. -/
theorem table_of_step_of_no_run {before after : List (Stamped ℤ (Act ι κ φ))}
    {a : Stamped ℤ (Act ι κ φ)} {s s' : Clocked ℤ (State ι κ φ)}
    (h : exec (clocked (step services hashtext)) ⟨clock, .init first⟩ (before ++ a :: after) =
      some t)
    (hs : exec (clocked (step services hashtext)) ⟨clock, .init first⟩ before = some s)
    (hstep : clocked (step services hashtext) s a = some s') (ha : a.act.caller = some k)
    (hrun : t.inner.grants k = none) : s'.inner.table = s.inner.table := by
  obtain ⟨-, -, hinner⟩ := clocked_eq_some.mp hstep
  have hfires := fires_of_step hinner
  have hvalid := valid_step (oneClaim_of_run hs).valid hfires
  have hrest : exec (clocked (step services hashtext)) s' after = some t := by
    obtain ⟨u, hu, hrest⟩ := exec_append_eq_some.mp h
    rw [hs] at hu
    cases hu
    obtain ⟨u', hu', hrest⟩ := exec_cons_eq_some.mp hrest
    rw [hstep] at hu'
    cases hu'
    exact hrest
  rcases table_of_fires hfires ha with htable | hgrant
  · exact htable
  · -- the run of the call would still be there at the end
    have hkept : State.Valid services t.inner ∧ t.inner.grants k ≠ none := by
      refine exec_invariant (fun t => State.Valid services t.inner ∧ t.inner.grants k ≠ none)
        ⟨hvalid, hgrant⟩ ?_ hrest
      rintro u b u' ⟨hu, hk⟩ hb
      obtain ⟨-, -, hb⟩ := clocked_eq_some.mp hb
      have hfires := fires_of_step hb
      exact ⟨valid_step hu hfires, grants_kept hu (moves_of_fires hfires) hk⟩
    exact absurd hrun hkept.2

/-- However calls of services that share their settings interleave, a chain never has more active
replay rows than its limit, at the time of the last step or later. A call that has raised has left
the table as it was, at each of its steps. -/
theorem replays_in_flight_le
    (hshared : ∀ i, (services i).chainId = chainId → (services i).settings = cfg)
    (hfirst : countActiveReplayRuns chainId (staleAfter cfg clock) first ≤ replayLimit cfg)
    (hordinary : ∀ a ∈ as, a.act.Ordinary)
    (h : exec (clocked (step services hashtext)) ⟨clock, .init first⟩ as = some t) :
    (∀ now, t.clock ≤ now →
      countActiveReplayRuns chainId (staleAfter cfg now) t.inner.table ≤
        max 1 cfg.replayMaxInFlightPerChain) ∧
    ∀ k c e, t.inner.calls k = some c → c.phase = .returned (.raised e) →
      ∀ before a after s s', as = before ++ a :: after →
        exec (clocked (step services hashtext)) ⟨clock, .init first⟩ before = some s →
        clocked (step services hashtext) s a = some s' → a.act.caller = some k →
        s'.inner.table = s.inner.table := by
  refine ⟨fun now hnow => ?_, ?_⟩
  · have hload := (inFlight_of_run hshared hfirst hordinary h).within.load_le
    have hage := count_anti chainId cfg t.inner.table hnow
    have hlimit : countActiveReplayRuns chainId (staleAfter cfg t.clock) t.inner.table ≤
        (replayLimit cfg).toNat := hload
    unfold replayLimit at hlimit
    omega
  · rintro k c e hk hphase before a after s s' rfl hs hstep ha
    refine table_of_step_of_no_run h hs hstep ha ?_
    have hvalid := (oneClaim_of_run h).valid k c hk
    rw [State.grants_eq hk, granted_of_phase hvalid (by simp [hphase]) (by rw [hphase]; rfl)]
    rfl

/-- A replay is in flight when another one asks. -/
def twoReplays : List (Stamped ℤ (Act Unit Bool Unit)) :=
  [⟨60000000, .call false () (.replay ⟨5000000, some 0⟩)⟩,
    ⟨60000000, .lock false⟩,
    ⟨60000000, .count false⟩,
    ⟨60000000, .insert false "0f"⟩,
    ⟨60000000, .unlock false⟩,
    ⟨61000000, .call true () (.replay ⟨5000000, some 0⟩)⟩,
    ⟨61000000, .lock true⟩,
    ⟨61000000, .count true⟩,
    ⟨61000000, .unlock true⟩]

theorem replays_in_flight_le_twoReplays :
    ∃ t c e, exec (clocked (step (fun _ => sampleService) fun _ => 0)) ⟨0, .init .empty⟩
        twoReplays = some t ∧
      (∀ now, t.clock ≤ now →
        countActiveReplayRuns "bsc" (staleAfter sampleService.settings now) t.inner.table ≤
          max 1 sampleService.settings.replayMaxInFlightPerChain) ∧
      t.inner.calls true = some c ∧ c.phase = .returned (.raised e) ∧
      ∀ before a after s s', twoReplays = before ++ a :: after →
        exec (clocked (step (fun _ => sampleService) fun _ => 0)) ⟨0, .init .empty⟩ before =
          some s →
        clocked (step (fun _ => sampleService) fun _ => 0) s a = some s' →
        a.act.caller = some true → s'.inner.table = s.inner.table := by
  have hphase : ((exec (clocked (step (fun _ => sampleService) fun _ => 0)) ⟨0, .init .empty⟩
      twoReplays).bind fun t => (t.inner.calls true).map Call.phase) =
        some (.returned (.raised (.runtimeError "too many in-flight replay runs"))) := by
    decide +kernel
  obtain ⟨t, ht, hcall⟩ := Option.bind_eq_some_iff.mp hphase
  obtain ⟨c, hk, hp⟩ := Option.map_eq_some_iff.mp hcall
  have hfirst : countActiveReplayRuns "bsc" (staleAfter sampleService.settings 0) .empty ≤
      replayLimit sampleService.settings := by decide +kernel
  have hordinary : ∀ a ∈ twoReplays, a.act.Ordinary := by simp [twoReplays, Act.Ordinary]
  obtain ⟨hbound, hunchanged⟩ :=
    replays_in_flight_le (fun _ _ => rfl) hfirst hordinary ht
  exact ⟨t, c, _, ht, hbound, hk, hp, hunchanged true c _ hk hp⟩

end ChainMonitor.PipelineCalls
