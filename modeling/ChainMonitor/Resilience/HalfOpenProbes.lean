import ChainMonitor.Resilience.Executor

/-! How often the executor calls `fn` while its breaker is half-open. The breaker counts the calls
that it admits, and each of them may try several times; calls from before go on as well. -/

namespace ChainMonitor.Executor

open ProofKit

variable {T ε : Type*}

/-- The step calls `fn`: a call that waits for a token is given one. -/
def invoked (cfg : Config ε) (s : System T ε) (e : Event T ε) : Bool :=
  match e.act with
  | .pass i =>
    match s.admissions.inflight[i]? with
    | some ⟨.acquiring _, _, _⟩ => (RateLimiter.pass cfg.limiter e.now s.bucket).1 = .granted
    | _ => false
  | _ => false

def invocations (cfg : Config ε) : System T ε → List (Event T ε) → ℕ :=
  total (step cfg) fun s e => if invoked cfg s e then 1 else 0

/-- The step records an outcome: a success, or a failure of the last attempt. -/
def records (cfg : Config ε) (s : System T ε) (e : Event T ε) : Bool :=
  match e.act with
  | .finish _ (.value _) => true
  | .finish i (.exception x) =>
    match s.admissions.inflight[i]? with
    | some ⟨.calling k, _, _⟩ => cfg.isRetryable x && cfg.retryAttempts ≤ k
    | _ => false
  | _ => false

/-- Where the breaker is half-open, only the first attempt of a call that it has admitted since then
calls `fn`: no second attempt, and no call from before. -/
def FirstProbe (cfg : Config ε) (s : System T ε) (e : Event T ε) : Prop :=
  s.admissions.breaker.state = .halfOpen → invoked cfg s e = true →
    ∀ i t, e.act = .pass i → s.admissions.inflight[i]? = some t →
      t.probe = true ∧ t.phase = .acquiring 1

/-! ### The number of an attempt -/

/-- Attempts are counted from 1. -/
def Phase.Counted : Phase → Prop
  | .acquiring k | .calling k | .sleeping k => 1 ≤ k
  | .settled => True

def Counted (s : System T ε) : Prop := ∀ t ∈ s.admissions.inflight, t.phase.Counted

section Steps

variable {cfg : Config ε} {s s' : System T ε} {e : Event T ε} {now later : ℚ}

theorem counted_set {inflight : List (Ticket Phase)} {i : ℕ} {t : Ticket Phase}
    (h : ∀ t ∈ inflight, t.phase.Counted) (ht : t.phase.Counted) :
    ∀ u ∈ inflight.set i t, u.phase.Counted := by
  intro u hu
  rcases List.mem_or_eq_of_mem_set hu with hu | rfl
  · exact h u hu
  · exact ht

theorem counted_leave {a : Admissions Phase (Exit T ε)} {i : ℕ} {x : Exit T ε}
    (h : ∀ t ∈ a.inflight, t.phase.Counted) : ∀ t ∈ (a.leave i x).inflight, t.phase.Counted := by
  unfold Admissions.leave
  split
  · exact h
  · exact fun t ht => h t (List.mem_of_mem_eraseIdx ht)

theorem counted_settle {a : Admissions Phase (Exit T ε)} {i : ℕ} {t : Ticket Phase}
    {b : CircuitBreaker.AsyncCircuitBreaker} (h : ∀ t ∈ a.inflight, t.phase.Counted) :
    ∀ u ∈ (a.settle i t .settled b).inflight, u.phase.Counted := by
  intro u hu
  obtain ⟨v, hv, rfl⟩ := List.mem_map.mp hu
  exact counted_set h (t := ⟨.settled, false, t.recorded + 1⟩) trivial v hv

theorem counted_enter {a : Admissions Phase (Exit T ε)} {cfg : CircuitBreaker.Config}
    (h : ∀ t ∈ a.inflight, t.phase.Counted) :
    ∀ t ∈ (a.enter cfg now (.acquiring 1)).2.inflight, t.phase.Counted := by
  unfold Admissions.enter
  split
  · intro t ht
    rcases List.mem_append.mp ht with ht | ht
    · exact h t ht
    · rw [List.mem_singleton.mp ht]
      exact le_refl 1
  · exact h

theorem counted_finish {i k : ℕ} {t : Ticket Phase} (h : Counted s)
    (ht : s.admissions.inflight[i]? = some t) (hk : t.phase = .calling k) (o : Outcome T ε) :
    Counted (finish cfg now later i t k s o) := by
  have hcounted := h t (List.mem_of_getElem? ht)
  rw [hk] at hcounted
  cases o with
  | value v => exact counted_leave (counted_settle h)
  | exception x =>
    unfold finish
    dsimp only
    split
    · exact counted_leave h
    · split
      · split
        · exact counted_leave h
        · exact counted_set h hcounted
      · exact counted_leave (counted_settle h)

theorem Counted.act {a : Act T ε} (h : Counted s) (hact : act cfg now later s a = some s') :
    Counted s' := by
  cases a with
  | execute =>
    simp only [Executor.act, execute, Option.some_inj] at hact
    subst hact
    split
    · exact counted_enter h
    · exact h
  | pass i =>
    obtain ⟨t, k, ht, hk, -, hmove | hstay⟩ := act_pass_eq_some hact
    · have hcounted := h t (List.mem_of_getElem? ht)
      rw [hk] at hcounted
      unfold Counted
      rw [hmove]
      exact counted_set h hcounted
    · unfold Counted
      rw [hstay]
      exact h
  | finish i o =>
    obtain ⟨t, k, ht, hk, rfl⟩ := act_finish_eq_some hact
    exact counted_finish h ht hk o
  | wake i =>
    obtain ⟨t, k, ht, -, rfl⟩ := act_wake_eq_some hact
    exact counted_set h (Nat.le_add_left 1 k)

theorem reachable_counted {t₀ : ℚ} {es : List (Event T ε)}
    (h : exec (step cfg) (created cfg t₀) es = some s) : Counted s := by
  refine exec_invariant Counted (fun t ht => absurd ht List.not_mem_nil) ?_ h
  intro u e v hu hstep
  obtain ⟨-, w, hw, rfl⟩ := step_eq_some.mp hstep
  exact fun t ht => hu.act hw t ht

/-! ### The calls of `fn` in a half-open phase -/

/-- A probe that has not called `fn` yet. -/
def untried (t : Ticket Phase) : Bool := t.probe && decide (t.phase = .acquiring 1)

/-- In a half-open phase in which `fn` has been called `n` times each call had its own slot. -/
structure Probing (cfg : Config ε) (n : ℕ) (s : System T ε) : Prop where
  counted : Counted s
  halfOpen : s.admissions.breaker.state = .halfOpen
  slots : s.admissions.breaker.halfOpenCalls ≤ cfg.breaker.halfOpenMaxCalls
  covered : n + s.admissions.inflight.countP untried ≤ s.admissions.breaker.halfOpenCalls

theorem Probing.of_admissions_eq {n : ℕ} (h : Probing cfg n s)
    (hs : s'.admissions = s.admissions) : Probing cfg n s' := by
  obtain ⟨hcounted, hhalf, hslots, hcovered⟩ := h
  refine ⟨?_, ?_, ?_, ?_⟩ <;> simp only [Counted, hs]
  · exact hcounted
  · exact hhalf
  · exact hslots
  · exact hcovered

theorem Probing.execute {n : ℕ} (h : Probing cfg n s) :
    Probing cfg n (Executor.execute cfg now later s) := by
  unfold Executor.execute
  split
  · obtain ⟨hcounted, hhalf, hslots, hcovered⟩ := h
    have hentered : ∀ t ∈ (s.admissions.enter cfg.breaker later (.acquiring 1)).2.inflight,
        t.phase.Counted := counted_enter hcounted
    rcases CircuitBreaker.allowRequest_cases cfg.breaker later s.admissions.breaker with
      ⟨hs, -⟩ | ⟨-, he⟩ | ⟨-, hfree, he⟩ | ⟨hs, -⟩
    · exact absurd (hhalf.symm.trans hs) (by decide)
    · refine ⟨hentered, ?_, ?_, ?_⟩ <;> simp only [Admissions.enter, he]
      · exact hhalf
      · exact hslots
      · exact hcovered
    · refine ⟨hentered, ?_, ?_, ?_⟩ <;> simp only [Admissions.enter, he]
      · exact hhalf
      · exact hfree
      · simp only [List.countP_append, List.countP_singleton, untried, hhalf, decide_true,
          Bool.and_self, ↓reduceIte]
        omega
    · exact absurd (hhalf.symm.trans hs) (by decide)
  · exact h.of_admissions_eq rfl

/-- A call that waits somewhere else, and not for its first token. -/
theorem Probing.move {n i : ℕ} {t : Ticket Phase} {p : Phase} (h : Probing cfg n s)
    (ht : s.admissions.inflight[i]? = some t) (hp : p.Counted) (hne : p ≠ .acquiring 1) :
    Probing cfg (n + if untried t then 1 else 0)
      { s with admissions := s.admissions.move i t p } := by
  obtain ⟨hcounted, hhalf, hslots, hcovered⟩ := h
  refine ⟨counted_set hcounted hp, hhalf, hslots, ?_⟩
  have hcount := Admissions.countP_set_add (p := untried) ht { t with phase := p }
  have hafter : untried { t with phase := p } = false := by simp [untried, hne]
  rw [hafter] at hcount
  simp only [Admissions.move]
  simp only [Bool.false_eq_true, ↓reduceIte, Nat.add_zero] at hcount
  omega

theorem Probing.leave {n i : ℕ} {x : Exit T ε} (h : Probing cfg n s) :
    Probing cfg n { s with admissions := s.admissions.leave i x } := by
  cases ht : s.admissions.inflight[i]? with
  | none =>
    have hsame : s.admissions.leave i x = s.admissions := by simp [Admissions.leave, ht]
    exact h.of_admissions_eq hsame
  | some t =>
    obtain ⟨hcounted, hhalf, hslots, hcovered⟩ := h
    have hcount := Admissions.countP_eraseIdx (p := untried) ht
    refine ⟨counted_leave hcounted, ?_, ?_, ?_⟩ <;> simp only [Admissions.leave, ht]
    · exact hhalf
    · exact hslots
    · omega

/-- A pass of the limiter calls `fn`, or leaves the calls as they are. -/
theorem act_pass_cases {i : ℕ} (h : act cfg now later s (.pass i) = some s') :
    ∃ t k, s.admissions.inflight[i]? = some t ∧ t.phase = .acquiring k ∧
      (invoked cfg s ⟨now, later, .pass i⟩ = true ∧
          s'.admissions = s.admissions.move i t (.calling k) ∨
        invoked cfg s ⟨now, later, .pass i⟩ = false ∧ s'.admissions = s.admissions) := by
  simp only [act] at h
  split at h
  · rename_i t ht
    obtain ⟨p, probe, recorded⟩ := t
    split at h <;> rename_i hp hq <;> cases h <;> obtain rfl := hp
    · exact ⟨_, _, ht, rfl, .inl ⟨by simp [invoked, ht, hq], rfl⟩⟩
    · exact ⟨_, _, ht, rfl, .inr ⟨by simp [invoked, ht, hq], rfl⟩⟩
  · cases h

/-- An attempt that ends without an outcome leaves the breaker as it is. -/
theorem Probing.finish {n i k : ℕ} {t : Ticket Phase} {o : Outcome T ε} (h : Probing cfg n s)
    (ht : s.admissions.inflight[i]? = some t) (hk : t.phase = .calling k)
    (hquiet : records cfg s ⟨now, later, .finish i o⟩ = false) :
    Probing cfg n (Executor.finish cfg now later i t k s o) := by
  have hcounted := h.counted t (List.mem_of_getElem? ht)
  obtain ⟨p, probe, recorded⟩ := t
  obtain rfl : p = .calling k := hk
  cases o with
  | value v => cases hquiet
  | exception x =>
    unfold Executor.finish
    dsimp only
    split
    · exact h.leave
    · rename_i hretryable
      split
      · split
        · exact h.leave
        · simpa [untried] using h.move ht (p := .sleeping k) hcounted (by simp)
      · rename_i hlast
        simp [records, ht] at hquiet hretryable
        exact absurd (hquiet hretryable) hlast

theorem Probing.act {n : ℕ} {a : Act T ε} (h : Probing cfg n s)
    (hact : act cfg now later s a = some s') (hquiet : records cfg s ⟨now, later, a⟩ = false)
    (hfirst : FirstProbe cfg s ⟨now, later, a⟩) :
    Probing cfg (n + if invoked cfg s ⟨now, later, a⟩ then 1 else 0) s' := by
  cases a with
  | execute =>
    simp only [Executor.act, Option.some_inj] at hact
    subst hact
    exact h.execute
  | pass i =>
    obtain ⟨t, k, ht, hk, ⟨hinvoked, hmove⟩ | ⟨hinvoked, hstay⟩⟩ := act_pass_cases hact
    · obtain ⟨hprobe, hphase⟩ := hfirst h.halfOpen hinvoked i t rfl ht
      have hcounted := h.counted t (List.mem_of_getElem? ht)
      rw [hk] at hcounted
      have hmoved := h.move ht (p := .calling k) hcounted (by simp)
      have huntried : untried t = true := by simp [untried, hprobe, hphase]
      rw [huntried] at hmoved
      rw [hinvoked]
      exact hmoved.of_admissions_eq hmove
    · rw [hinvoked]
      exact h.of_admissions_eq hstay
  | finish i o =>
    obtain ⟨t, k, ht, hk, rfl⟩ := act_finish_eq_some hact
    exact h.finish ht hk hquiet
  | wake i =>
    obtain ⟨t, k, ht, hk, rfl⟩ := act_wake_eq_some hact
    have hcounted := h.counted t (List.mem_of_getElem? ht)
    rw [hk] at hcounted
    have hne : Phase.acquiring (k + 1) ≠ .acquiring 1 := by
      have hpos : 1 ≤ k := hcounted
      simp only [ne_eq, Phase.acquiring.injEq]
      omega
    have hmoved := h.move ht (p := .acquiring (k + 1)) (Nat.le_add_left 1 k) hne
    have huntried : untried t = false := by simp [untried, hk]
    rw [huntried] at hmoved
    exact hmoved

theorem leave_breaker {a : Admissions Phase (Exit T ε)} {i : ℕ} {x : Exit T ε} :
    (a.leave i x).breaker = a.breaker := by
  unfold Admissions.leave
  split <;> rfl

/-- The end of an attempt does not make a breaker half-open. -/
theorem finish_state {i k : ℕ} {t : Ticket Phase} {o : Outcome T ε}
    (h : (finish cfg now later i t k s o).admissions.breaker.state = .halfOpen) :
    s.admissions.breaker.state = .halfOpen := by
  cases o with
  | value v =>
    rw [finish, leave_breaker] at h
    exact absurd (CircuitBreaker.recordSuccess_state.symm.trans h) (by decide)
  | exception x =>
    unfold finish at h
    dsimp only at h
    split at h
    · rwa [leave_breaker] at h
    · split at h
      · split at h
        · rwa [leave_breaker] at h
        · exact h
      · rw [leave_breaker] at h
        exact absurd h CircuitBreaker.recordFailure_state_ne

/-- A breaker becomes half-open when it admits the first probe. -/
theorem act_entry {a : Act T ε} (hact : act cfg now later s a = some s')
    (hn : s.admissions.breaker.state ≠ .halfOpen)
    (hs : s'.admissions.breaker.state = .halfOpen) :
    s'.admissions.breaker.halfOpenCalls = 1 := by
  cases a with
  | execute =>
    simp only [act, execute, Option.some_inj] at hact
    subst hact
    split at hs
    · rename_i hback
      rw [if_pos hback]
      rcases CircuitBreaker.allowRequest_cases cfg.breaker later s.admissions.breaker with
        ⟨-, he⟩ | ⟨-, he⟩ | ⟨hhalf, -⟩ | ⟨-, -, he⟩
      · exact absurd (by simpa only [Admissions.enter, he] using hs) hn
      · exact absurd (by simpa only [Admissions.enter, he] using hs) hn
      · exact absurd hhalf hn
      · simp only [Admissions.enter, he]
    · exact absurd hs hn
  | pass i =>
    obtain ⟨t, k, -, -, -, hmove | hstay⟩ := act_pass_eq_some hact
    · rw [hmove] at hs
      exact absurd hs hn
    · rw [hstay] at hs
      exact absurd hs hn
  | finish i o =>
    obtain ⟨t, k, -, -, rfl⟩ := act_finish_eq_some hact
    exact absurd (finish_state hs) hn
  | wake i =>
    obtain ⟨t, k, -, -, rfl⟩ := act_wake_eq_some hact
    exact absurd hs hn

/-- The state in which a breaker has become half-open. -/
theorem probing_entry {t₀ : ℚ} {es : List (Event T ε)}
    (h : exec (step cfg) (created cfg t₀) es = some s) (he : step cfg s e = some s')
    (hn : s.admissions.breaker.state ≠ .halfOpen)
    (hs : s'.admissions.breaker.state = .halfOpen) : Probing cfg 0 s' := by
  have hafter : exec (step cfg) (created cfg t₀) (es ++ [e]) = some s' :=
    exec_concat_eq_some.mpr ⟨s, h, he⟩
  obtain ⟨-, u, hu, rfl⟩ := step_eq_some.mp he
  have hone := act_entry hu hn hs
  have hslots := (reachable_valid hafter).sound.slots hs
  have hcount := List.countP_mono_left (l := u.admissions.inflight) (p := untried)
    (q := fun t => t.probe) fun t _ ht => (Bool.and_eq_true_iff.mp ht).1
  refine ⟨reachable_counted hafter, hs, ?_, ?_⟩
  · show u.admissions.breaker.halfOpenCalls ≤ _
    rw [hone]
    exact cfg.breaker.one_le_maxCalls
  · show 0 + u.admissions.inflight.countP untried ≤ u.admissions.breaker.halfOpenCalls
    dsimp only at hslots
    omega

/-- From the step that makes the breaker half-open up to the first recorded outcome, `fn` is called
at most `half_open_max_calls` times, if only first attempts of the calls that the breaker has
admitted since then call it. -/
theorem probes_bounded {t₀ : ℚ} {es later : List (Event T ε)} {t : System T ε}
    (h : exec (step cfg) (created cfg t₀) es = some s) (he : step cfg s e = some s')
    (hn : s.admissions.breaker.state ≠ .halfOpen)
    (hs : s'.admissions.breaker.state = .halfOpen)
    (hquiet : Meets (step cfg) (fun s e => records cfg s e = false) s' later)
    (hfirst : Meets (step cfg) (FirstProbe cfg) s' later)
    (hrun : exec (step cfg) s' later = some t) :
    invocations cfg s' later ≤ cfg.breaker.halfOpenMaxCalls := by
  have hmeets := meets_and.mpr ⟨hquiet, hfirst⟩
  have hprobing : Probing cfg (invocations cfg s' later) t := by
    refine exec_induction (fun later t => Probing cfg (invocations cfg s' later) t)
      (probing_entry h he hn hs) ?_ hmeets hrun
    rintro later u e v hu hprobing ⟨hquiet, hfirst⟩ hstep
    rw [invocations, total_concat hu]
    obtain ⟨-, w, hw, rfl⟩ := step_eq_some.mp hstep
    exact (hprobing.act hw hquiet hfirst).of_admissions_eq rfl
  have hcovered := hprobing.covered
  have hslots := hprobing.slots
  omega

end Steps

/-! ### One probe, and one that tries again -/

/-- A breaker that a timeout has opened. -/
def opened : System ℕ GmgnError where
  clock := 5
  backoff := ⟨1, 6⟩
  bucket := ⟨4, 0⟩
  admissions := ⟨⟨.opened, 0, 5, 0⟩, [], 0, [⟨1, .exhausted⟩]⟩

/-- The breaker becomes half-open for a probe. -/
def probed : System ℕ GmgnError where
  clock := 40
  backoff := ⟨1, 6⟩
  bucket := ⟨4, 0⟩
  admissions := ⟨⟨.halfOpen, 0, 5, 1⟩, [⟨.acquiring 1, true, 0⟩], 0, [⟨1, .exhausted⟩]⟩

theorem probes_bounded_probed :
    invocations gmgn probed [⟨40, 40, .pass 0⟩] ≤ gmgn.breaker.halfOpenMaxCalls := by
  have h : exec (step gmgn) (created gmgn 0) [⟨0, 0, .execute⟩, ⟨0, 0, .pass 0⟩,
      ⟨5, 5, .finish 0 (.exception .timeoutError)⟩] = some opened := by
    decide +kernel
  have he : step gmgn opened ⟨40, 40, .execute⟩ = some probed := by decide +kernel
  obtain ⟨t, hrun⟩ := Option.isSome_iff_exists.mp
    (show (exec (step gmgn) probed [⟨40, 40, .pass 0⟩]).isSome = true by decide +kernel)
  refine probes_bounded h he (by decide) (by decide) ⟨rfl, fun _ _ => trivial⟩
    ⟨?_, fun _ _ => trivial⟩ hrun
  intro _ _ i t hi ht
  cases hi
  cases ht
  exact ⟨rfl, rfl⟩

/-- Two attempts a call. -/
def gmgnTwice : Config GmgnError :=
  { gmgn with retryAttempts := 2, one_le_retryAttempts := by decide }

def openedTwice : System ℕ GmgnError where
  clock := 10
  backoff := ⟨1, 11⟩
  bucket := ⟨4, 6⟩
  admissions := ⟨⟨.opened, 0, 10, 0⟩, [], 0, [⟨1, .exhausted⟩]⟩

def probedTwice (phase : Phase) (bucket : RateLimiter.AsyncTokenBucket) : System ℕ GmgnError where
  clock := 50
  backoff := ⟨1, 11⟩
  bucket := bucket
  admissions := ⟨⟨.halfOpen, 0, 10, 1⟩, [⟨phase, true, 0⟩], 0, [⟨1, .exhausted⟩]⟩

/-- Two timeouts open the breaker, and the probe times out once and tries again. -/
theorem probe_tries_again :
    ¬∀ (cfg : Config GmgnError) (t₀ : ℚ) (es : List (Event ℕ GmgnError)) s e s' later t,
      exec (step cfg) (created cfg t₀) es = some s → step cfg s e = some s' →
      s.admissions.breaker.state ≠ .halfOpen → s'.admissions.breaker.state = .halfOpen →
      Meets (step cfg) (fun s e => records cfg s e = false) s' later →
      exec (step cfg) s' later = some t →
      invocations cfg s' later ≤ cfg.breaker.halfOpenMaxCalls := by
  intro hall
  have h : exec (step gmgnTwice) (created gmgnTwice 0) [⟨0, 0, .execute⟩, ⟨0, 0, .pass 0⟩,
      ⟨5, 5, .finish 0 (.exception .timeoutError)⟩, ⟨6, 6, .wake 0⟩, ⟨6, 6, .pass 0⟩,
      ⟨10, 10, .finish 0 (.exception .timeoutError)⟩] = some openedTwice := by
    decide +kernel
  have he : step gmgnTwice openedTwice ⟨50, 50, .execute⟩ =
      some (probedTwice (.acquiring 1) ⟨4, 6⟩) := by
    decide +kernel
  have hcalls : step gmgnTwice (probedTwice (.acquiring 1) ⟨4, 6⟩) ⟨50, 50, .pass 0⟩ =
      some (probedTwice (.calling 1) ⟨4, 50⟩) := by
    decide +kernel
  have hquiet : Meets (step gmgnTwice) (fun s e => records gmgnTwice s e = false)
      (probedTwice (.acquiring 1) ⟨4, 6⟩) [⟨50, 50, .pass 0⟩,
        ⟨51, 51, .finish 0 (.exception .timeoutError)⟩, ⟨52, 52, .wake 0⟩, ⟨52, 52, .pass 0⟩] :=
    (meets_cons_of_step hcalls).mpr ⟨rfl, by decide +kernel, fun _ _ =>
      ⟨rfl, fun _ _ => ⟨rfl, fun _ _ => trivial⟩⟩⟩
  obtain ⟨t, hrun⟩ := Option.isSome_iff_exists.mp
    (show (exec (step gmgnTwice) (probedTwice (.acquiring 1) ⟨4, 6⟩) [⟨50, 50, .pass 0⟩,
      ⟨51, 51, .finish 0 (.exception .timeoutError)⟩, ⟨52, 52, .wake 0⟩,
      ⟨52, 52, .pass 0⟩]).isSome = true by decide +kernel)
  have hle := hall gmgnTwice 0 _ _ _ _ _ t h he (by decide) (by decide) hquiet hrun
  exact absurd hle (by decide +kernel)

end ChainMonitor.Executor
