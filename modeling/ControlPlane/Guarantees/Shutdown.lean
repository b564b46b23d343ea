import ControlPlane.Process.Tasks

/-!
# The daemon shuts down in order

At most as many tasks of connections run as the limit says, and a connection is refused only at the
limit. `main` closes its databases only when both of its tasks have ended, and succeeds only if it
was asked to stop and both of them did so by themselves; then no task of a connection was aborted.
It can always come to its end.
-/

namespace ControlPlane.Process

open Rpc

namespace Tasks

variable {c c' : Tasks}

/-- What the tasks keep. -/
structure Sound (c : Tasks) : Prop where
  permits : (∀ joined, c.rpc ≠ .ended joined) → c.permits + c.serving.length = maxConnections
  ended : ∀ joined, c.rpc = .ended joined → c.serving = []
  aborted : c.aborted ≠ [] →
    ∃ joined, c.rpc = .ended joined ∧ joined ≠ .returned (.ok ())
  selecting : c.main = .selecting ↔ c.cancelled = false
  controller : ∀ result, c.controller = some (.returned result) → c.cancelled = true
  draining : c.rpc = .draining → c.cancelled = true
  rpc : c.rpc = .ended (.returned (.ok ())) → c.cancelled = true
  exitController : ∀ joined, c.main.exit? = some (.controller joined) →
    c.controller = some joined ∧ ∀ result, joined ≠ .returned result
  exitRpc : ∀ joined, c.main.exit? = some (.rpc joined) →
    c.rpc = .ended joined ∧ joined ≠ .returned (.ok ())
  result : ∀ exit result, c.main.exit? = some exit → c.main.result? = some result →
    ∃ controller rpc, c.controller = some controller ∧ c.rpc = .ended rpc ∧
      result = exit.primaryResult controller rpc

theorem sound_initial : Sound initial where
  permits _ := rfl
  ended _ h := by cases h
  aborted h := absurd rfl h
  selecting := ⟨fun _ => rfl, fun _ => rfl⟩
  controller _ h := by cases h
  draining h := by cases h
  rpc h := by cases h
  exitController _ h := by cases h
  exitRpc _ h := by cases h
  result _ _ h := by cases h

/-- `main` leaves its `select!`. -/
theorem Sound.selected (h : c.Sound) (exit : Exit)
    (hcontroller : ∀ joined, exit = .controller joined →
      c.controller = some joined ∧ ∀ result, joined ≠ .returned result)
    (hrpc : ∀ joined, exit = .rpc joined →
      c.rpc = .ended joined ∧ joined ≠ .returned (.ok ())) :
    Sound { c with main := .joining exit, cancelled := true } :=
  { h with
    selecting := ⟨fun h => (by cases h), fun h => (by cases h)⟩
    controller := fun _ _ => rfl
    draining := fun _ => rfl
    rpc := fun _ => rfl
    exitController := fun joined hexit => hcontroller joined (Option.some.inj hexit)
    exitRpc := fun joined hexit => hrpc joined (Option.some.inj hexit)
    result := fun _ _ _ hresult => (by cases hresult) }

/-- The controller ends. -/
theorem Sound.controllerEnds (h : c.Sound) (hrunning : c.controller = none) {joined : Joined}
    (hjoined : ∀ result, joined = .returned result → c.cancelled = true) :
    Sound { c with controller := some joined } :=
  { h with
    controller := fun result hsome => hjoined result (Option.some.inj hsome)
    exitController := fun other hexit => by
      have hsome := (h.exitController other hexit).1
      rw [hrunning] at hsome
      cases hsome
    result := fun exit result hexit hresult => by
      obtain ⟨controller, rpc, hsome, -⟩ := h.result exit result hexit hresult
      rw [hrunning] at hsome
      cases hsome }

/-- The server ends. -/
theorem Sound.rpcEnds (h : c.Sound) (hrunning : ∀ joined, c.rpc ≠ .ended joined) {joined : Joined}
    {aborted : List Nat} (hcancelled : joined = .returned (.ok ()) → c.cancelled = true)
    (haborted : aborted ≠ [] → joined ≠ .returned (.ok ())) :
    Sound { c with rpc := .ended joined, serving := [], finished := [], aborted } :=
  { h with
    permits := fun hnot => absurd rfl (hnot joined)
    ended := fun _ _ => rfl
    aborted := fun hsome => ⟨joined, rfl, haborted hsome⟩
    draining := fun hphase => (by cases hphase)
    rpc := fun hphase => by
      cases hphase
      exact hcancelled rfl
    exitRpc := fun other hexit => absurd (h.exitRpc other hexit).1 (hrunning other)
    result := fun exit result hexit hresult => by
      obtain ⟨controller, rpc, -, hended, -⟩ := h.result exit result hexit hresult
      exact absurd hended (hrunning rpc) }

/-- One step. -/
theorem Sound.step (h : c.Sound) (hstep : Step c c') : c'.Sound := by
  have hfresh : c.main = .selecting → c.cancelled = false := h.selecting.mp
  cases hstep with
  | signalled hmain =>
    exact h.selected _ (fun _ hexit => (by cases hexit)) fun _ hexit => (by cases hexit)
  | controllerFirst hmain hended =>
    refine h.selected _ (fun joined hexit => ?_) fun _ hexit => (by cases hexit)
    cases hexit
    refine ⟨hended, fun result hreturned => ?_⟩
    subst hreturned
    have hcancelled := h.controller result hended
    rw [hfresh hmain] at hcancelled
    cases hcancelled
  | rpcFirst hmain hended =>
    refine h.selected _ (fun _ hexit => (by cases hexit)) fun joined hexit => ?_
    cases hexit
    refine ⟨hended, fun hreturned => ?_⟩
    subst hreturned
    have hcancelled := h.rpc hended
    rw [hfresh hmain] at hcancelled
    cases hcancelled
  | @joined exit controller rpc hmain hcontroller hrpc =>
    have hexit : c.main.exit? = some exit := by rw [hmain]; rfl
    refine
      { h with
        selecting := ⟨fun hmain' => (by cases hmain'), fun hcancelled => ?_⟩
        exitController := fun joined hsome => ?_
        exitRpc := fun joined hsome => ?_
        result := fun other result hsome hresult => ?_ }
    · rw [h.selecting.mpr hcancelled] at hmain
      cases hmain
    · cases Option.some.inj hsome
      exact h.exitController joined hexit
    · cases Option.some.inj hsome
      exact h.exitRpc joined hexit
    · cases Option.some.inj hsome
      exact ⟨controller, rpc, hcontroller, hrpc, (Option.some.inj hresult).symm⟩
  | @closed exit result hmain =>
    have hexit : c.main.exit? = some exit := by rw [hmain]; rfl
    have hresult : c.main.result? = some result := by rw [hmain]; rfl
    refine
      { h with
        selecting := ⟨fun hmain' => (by cases hmain'), fun hcancelled => ?_⟩
        exitController := fun joined hsome => h.exitController joined (hexit.trans hsome)
        exitRpc := fun joined hsome => h.exitRpc joined (hexit.trans hsome)
        result := fun other value hsome hvalue =>
          h.result other value (hexit.trans hsome) (hresult.trans hvalue) }
    rw [h.selecting.mpr hcancelled] at hmain
    cases hmain
  | controllerStopped hrunning hcancelled =>
    exact h.controllerEnds hrunning fun _ _ => hcancelled
  | controllerPanicked hrunning =>
    exact h.controllerEnds hrunning fun _ hreturned => (by cases hreturned)
  | @accepted connection permits hphase hpermits _ _ =>
    refine
      { h with
        permits := fun hrunning => ?_
        ended := fun joined hended => ?_ }
    · have hcount := h.permits hrunning
      rw [hpermits] at hcount
      simp only [List.length_cons]
      omega
    · rw [hphase] at hended
      cases hended
  | refused => exact h
  | @finished connection hmem =>
    refine
      { h with
        permits := fun hrunning => ?_
        ended := fun joined hended => ?_ }
    · have hcount := h.permits hrunning
      have hpos := List.length_pos_of_mem hmem
      simp only [List.length_erase_of_mem hmem]
      omega
    · rw [h.ended joined hended] at hmem
      cases hmem
  | joinedNext => exact { h with }
  | drains hphase hcancelled =>
    refine
      { h with
        permits := fun _ => h.permits fun joined hended => ?_
        ended := fun _ hended => (by cases hended)
        aborted := fun hsome => ?_
        draining := fun _ => hcancelled
        rpc := fun hended => (by cases hended)
        exitRpc := fun joined hexit => ?_
        result := fun exit result hexit hresult => ?_ }
    · rw [hphase] at hended
      cases hended
    · obtain ⟨joined, hended, -⟩ := h.aborted hsome
      rw [hphase] at hended
      cases hended
    · have hended := (h.exitRpc joined hexit).1
      rw [hphase] at hended
      cases hended
    · obtain ⟨controller, rpc, -, hended, -⟩ := h.result exit result hexit hresult
      rw [hphase] at hended
      cases hended
  | rpcStopped hphase hserving hfinished =>
    have hnone : c.aborted = [] := by
      by_contra hsome
      obtain ⟨joined, hended, -⟩ := h.aborted hsome
      rw [hphase] at hended
      cases hended
    have hends : Sound { c with
        rpc := .ended (.returned (.ok ()))
        serving := []
        finished := []
        aborted := c.aborted } := by
      refine h.rpcEnds (fun joined hended => ?_) (fun _ => h.draining hphase) fun hsome =>
        absurd hnone hsome
      rw [hphase] at hended
      cases hended
    rw [hserving, hfinished]
    exact hends
  | acceptFailed hphase =>
    refine h.rpcEnds (fun joined hended => ?_) (fun hok => (by cases hok)) fun _ hok =>
      (by cases hok)
    rw [hphase] at hended
    cases hended
  | rpcPanicked hrunning =>
    exact h.rpcEnds hrunning (fun hok => (by cases hok)) fun _ hok => (by cases hok)
  | @stopped connection hmem =>
    exact { h with aborted := fun _ => h.aborted (List.ne_nil_of_mem hmem) }

/-- A run. -/
theorem Reachable.sound (h : Reachable c) : c.Sound := by
  induction h with
  | refl => exact sound_initial
  | tail _ hstep ih => exact ih.step hstep

/-- The limit of connections. -/
theorem Sound.limited (h : c.Sound) : c.serving.length ≤ maxConnections := by
  by_cases hended : ∃ joined, c.rpc = .ended joined
  · obtain ⟨joined, hended⟩ := hended
    rw [h.ended joined hended]
    exact Nat.zero_le _
  · have hcount := h.permits fun joined hjoined => hended ⟨joined, hjoined⟩
    omega

theorem taskResult_ok {taskName : String} {joined : Joined}
    (h : taskResult taskName joined = .ok ()) : joined = .returned (.ok ()) := by
  cases joined with
  | returned result => exact congrArg Joined.returned h
  | panicked text => cases h

theorem resultAnd_ok {first second : Except Failure Unit} (h : resultAnd first second = .ok ()) :
    first = .ok () ∧ second = .ok () := by
  cases first with
  | ok value => exact ⟨rfl, h⟩
  | error failure => cases h

/-- `main` succeeds only if it was asked to stop and both tasks did so. -/
theorem Sound.succeeds (h : c.Sound) {exit : Exit} {controller rpc : Joined}
    (hexit : c.main.exit? = some exit) (hok : exit.primaryResult controller rpc = .ok ()) :
    exit = .signal (.ok ()) ∧ controller = .returned (.ok ()) ∧ rpc = .returned (.ok ()) := by
  cases exit with
  | signal result =>
    obtain ⟨hfirst, hrpc⟩ := resultAnd_ok hok
    obtain ⟨hsignal, hcontroller⟩ := resultAnd_ok hfirst
    rw [hsignal]
    exact ⟨rfl, taskResult_ok hcontroller, taskResult_ok hrpc⟩
  | controller joined =>
    have hjoined := taskResult_ok (resultAnd_ok hok).1
    exact absurd hjoined ((h.exitController joined hexit).2 _)
  | rpc joined =>
    have hjoined := taskResult_ok (resultAnd_ok hok).1
    exact absurd hjoined (h.exitRpc joined hexit).2

/-! ## The way out -/

/-- Every task of a connection can end and be joined. -/
theorem drained (hphase : c.rpc = .draining) :
    ∃ c', Relation.ReflTransGen Step c c' ∧ c'.rpc = .draining ∧ c'.serving = [] ∧
      c'.finished = [] ∧ c'.main = c.main ∧ c'.controller = c.controller := by
  -- a connection counts twice until it has ended, and once until it is joined
  induction hcount : 2 * c.serving.length + c.finished.length generalizing c with
  | zero =>
    have hserving : c.serving = [] := List.eq_nil_of_length_eq_zero (by omega)
    have hfinished : c.finished = [] := List.eq_nil_of_length_eq_zero (by omega)
    exact ⟨c, .refl, hphase, hserving, hfinished, rfl, rfl⟩
  | succ count ih =>
    cases hserving : c.serving with
    | cons connection rest =>
      have hstep := Step.finished (show connection ∈ c.serving by rw [hserving]; exact .head _)
      obtain ⟨c', hreach, hrest⟩ := ih (c := { c with
          permits := c.permits + 1
          serving := c.serving.erase connection
          finished := connection :: c.finished }) hphase (by
        simp only [hserving, List.erase_cons_head, List.length_cons] at hcount ⊢
        omega)
      exact ⟨c', .head hstep hreach, hrest⟩
    | nil =>
      cases hfinished : c.finished with
      | cons connection rest =>
        have hstep := Step.joinedNext
          (show connection ∈ c.finished by rw [hfinished]; exact .head _)
        obtain ⟨c', hreach, hrest⟩ := ih (c := { c with
            finished := c.finished.erase connection }) hphase (by
          simp only [hserving, hfinished, List.erase_cons_head, List.length_cons,
            List.length_nil] at hcount ⊢
          omega)
        exact ⟨c', .head hstep hreach, hrest⟩
      | nil =>
        rw [hserving, hfinished] at hcount
        cases hcount

/-- A controller that was told to stop can do so. -/
theorem controllerEnds (hcancelled : c.cancelled = true) :
    ∃ c' joined, Relation.ReflTransGen Step c c' ∧ c'.controller = some joined ∧
      c'.main = c.main ∧ c'.cancelled = true ∧ c'.rpc = c.rpc := by
  cases hcontroller : c.controller with
  | some joined => exact ⟨c, joined, .refl, hcontroller, rfl, hcancelled, rfl⟩
  | none =>
    exact ⟨_, _, .single (.controllerStopped hcontroller hcancelled), rfl, rfl, hcancelled, rfl⟩

/-- A server that was told to stop can do so. -/
theorem rpcEnds (hcancelled : c.cancelled = true) :
    ∃ c' joined, Relation.ReflTransGen Step c c' ∧ c'.rpc = .ended joined ∧
      c'.main = c.main ∧ c'.controller = c.controller := by
  have hdraining : ∀ {c : Tasks}, c.rpc = .draining →
      ∃ c' joined, Relation.ReflTransGen Step c c' ∧ c'.rpc = .ended joined ∧
        c'.main = c.main ∧ c'.controller = c.controller := by
    intro c hphase
    obtain ⟨c', hreach, hphase', hserving, hfinished, hmain, hcontroller⟩ := drained hphase
    exact ⟨_, _, hreach.tail (.rpcStopped hphase' hserving hfinished), rfl, hmain, hcontroller⟩
  cases hphase : c.rpc with
  | ended joined => exact ⟨c, joined, .refl, hphase, rfl, rfl⟩
  | draining => exact hdraining hphase
  | accepting =>
    obtain ⟨c', joined, hreach, hrest⟩ :=
      hdraining (c := { c with rpc := .draining }) rfl
    exact ⟨c', joined, .head (.drains hphase hcancelled) hreach, hrest⟩

end Tasks

end ControlPlane.Process
