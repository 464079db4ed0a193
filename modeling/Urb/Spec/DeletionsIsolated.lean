import Urb.ForStd.Run
import Urb.Native.Deletions
import Urb.Spec.Assignments

/-!
# Isolation of the queued deletions

A deletion should be carried out by the post-processing of the request that queued it, and
should not hit a record that was stored after it had been queued. The first part of this
file shows that the operations of the model in `Urb.Native.Deletions` are those of the
handlers: a handler, seen from its framework, is a sequence of them, and post-processing
deletes what `__target_postprocessor` deletes. The second part is about all interleavings:
the deletions are isolated if nobody queues a deletion while another queued request is
under way (`OneAtATime`), and not otherwise.
-/

namespace Urb

/-! ## Handlers are made of the operations -/

/-- What an operation does to a framework and to the part of the list that is about it. -/
def Operation.apply (c : Framework × List DeleteElement) :
    Operation → Framework × List DeleteElement
  | .assign framework => (framework, c.2)
  | .queue element => (c.1, c.2 ++ [element])
  | .store taskId record => (c.1.setTask taskId record, c.2)
  | .replaceTaskDict framework => (framework, c.2.filter (·.dict ≠ .tasks))

/-- Only `store` adds a task, and only a new dictionary, which has one task, lacks tasks that were
    there. -/
def Operation.Accounted (c : Framework × List DeleteElement) : Operation → Prop
  | .assign framework => ∀ k, k ∈ framework.tasks ↔ k ∈ c.1.tasks
  | .replaceTaskDict framework => ∃ k, framework.tasks.keys = [k]
  | _ => True

/-- The framework and the list of the second state come from those of the first by a sequence of
    operations. -/
def Operates (s s' : State) : Prop :=
  ∃ ops : List Operation,
    Run.Meets Operation.apply Operation.Accounted (s.framework, s.deleteElements) ops ∧
    ops.foldl Operation.apply (s.framework, s.deleteElements) = (s'.framework, s'.deleteElements)

theorem Operates.refl (s : State) : Operates s s := ⟨[], trivial, rfl⟩

theorem Operates.single {s s' : State} (o : Operation)
    (h : o.apply (s.framework, s.deleteElements) = (s'.framework, s'.deleteElements))
    (ho : o.Accounted (s.framework, s.deleteElements)) :
    Operates s s' := ⟨[o], ⟨ho, trivial⟩, h⟩

theorem Operates.trans {s1 s2 s3 : State} (h : Operates s1 s2) (h' : Operates s2 s3) :
    Operates s1 s3 := by
  obtain ⟨ops, hmeets, hops⟩ := h
  obtain ⟨ops', hmeets', hops'⟩ := h'
  refine ⟨ops ++ ops', Run.meets_append.mpr ⟨hmeets, ?_⟩, ?_⟩
  · rw [hops]
    exact hmeets'
  · rw [List.foldl_append, hops, hops']

theorem Silent.operates {s s' : State} (h : Silent s s') : Operates s s' := by
  cases h with
  | emit e he => exact .refl s
  | modifyTask taskId g hg =>
    exact .single (.assign _) rfl fun k => Framework.mem_modifyTask s.framework taskId k g
  | modifySlave k g hg => exact .single (.assign _) rfl (by simp [Operation.Accounted])
  | delete d k => exact .single (.queue ⟨d, k⟩) rfl trivial
  | retry r => exact .refl s
  | revive => exact .single (.assign _) rfl fun _ => Iff.rfl
  | framework f ht hs ho hc hj => exact .single (.assign f) rfl fun k => by rw [ht]

theorem Assignment.operates {s s' : State} (h : Assignment s s') : Operates s s' := by
  cases h with
  | quiet h =>
    cases h with
    | silent h => exact h.operates
    | jobs jobIds => exact .single (.assign _) rfl fun _ => Iff.rfl
  | log e => exact .refl s
  | slave k x => exact .single (.assign _) rfl fun _ => Iff.rfl
  | store taskId r => exact .single (.store taskId r) rfl trivial
  | replace entry taskId t => exact .single (.replaceTaskDict _) rfl ⟨taskId, rfl⟩

theorem Assigns.operates {α : Type} {m : Handler α} (h : Assigns m) (s : State) :
    Operates s (m.after s) := by
  have hassigns := h s
  generalize m.after s = s' at hassigns
  induction hassigns with
  | refl => exact .refl s
  | tail _ hstep ih => exact ih.trans hstep.operates

/-- Handlers are made of the operations. -/
theorem handle_operates (env : Env) (entry : Entry) (r : Request) (s : State) :
    Operates s ((handle env entry r).after s) := (handle_assigns env entry r).operates s

namespace Deletions

variable {R F : Type} [DecidableEq R] [DecidableEq F]

omit [DecidableEq R] in
/-- The framework a request works on, and the part of the list that is about it, change as the
    handler changes them. -/
theorem view_operate (r : R) (f : F) (s : Deletions R F) (o : Operation) :
    ((s.operate r f o).frameworks f, (s.operate r f o).elementsOf f) =
      o.apply (s.frameworks f, s.elementsOf f) := by
  cases o with
  | assign framework => simp [operate, elementsOf, Operation.apply]
  | queue element => simp [operate, elementsOf, Operation.apply]
  | store taskId record =>
    have hmap : ∀ l : List (Pending R F),
        ((l.map fun p => if p.framework = f ∧ p.element = ⟨.tasks, taskId⟩ then
            { p with renewed := true } else p).filter fun p => decide (p.framework = f)).map
          (·.element) = (l.filter fun p => decide (p.framework = f)).map (·.element) := by
      intro l
      induction l with
      | nil => rfl
      | cons p l ih =>
        by_cases hp : p.framework = f
        · by_cases he : p.element = ⟨.tasks, taskId⟩
          · simp_all
          · simp_all
        · simp_all
    simp only [operate, elementsOf, Operation.apply, Function.update_self, hmap]
  | replaceTaskDict framework =>
    have hfilter : ∀ l : List (Pending R F),
        ((l.filter fun p => !(decide (p.framework = f) && decide (p.element.dict = .tasks))).filter
          fun p => decide (p.framework = f)).map (·.element) =
        ((l.filter fun p => decide (p.framework = f)).map (·.element)).filter
          (·.dict ≠ .tasks) := by
      intro l
      induction l with
      | nil => rfl
      | cons p l ih =>
        by_cases hp : p.framework = f
        · by_cases he : p.element.dict = .tasks
          · simp_all
          · simp_all
        · simp_all
    simp only [operate, elementsOf, Operation.apply, Function.update_self, hfilter]

omit [DecidableEq R] in
/-- Post-processing, seen from one framework. -/
theorem frameworks_postprocess (r : R) (s : Deletions R F) (f : F) {st : State}
    (hframework : st.framework = s.frameworks f) (hpending : st.deleteElements = s.elementsOf f) :
    (s.postprocess r).frameworks f = (targetPostprocessor st).framework := by
  rw [targetPostprocessor, hframework, hpending]
  rfl

omit [DecidableEq R] in
/-- A queued request queues the deletions that the handler queues, and does to its framework what
    the handler and the post-processor do. -/
theorem request_simulated (env : Env) (request : Request) (r : R) (f : F) (s : Deletions R F)
    (st : State) :
    let view : State := { st with framework := s.frameworks f, deleteElements := s.elementsOf f }
    ∃ ops : List Operation,
      let s' := ops.foldl (operate r f) s
      Run.Meets Operation.apply Operation.Accounted (s.frameworks f, s.elementsOf f) ops ∧
      s'.elementsOf f = ((handle env .queue request).after view).deleteElements ∧
      (s'.postprocess r).frameworks f = (handleQueued env request view).framework := by
  intro view
  obtain ⟨ops, hmeets, hops⟩ := handle_operates env .queue request view
  have hview : ops.foldl Operation.apply (s.frameworks f, s.elementsOf f) =
      ((ops.foldl (operate r f) s).frameworks f, (ops.foldl (operate r f) s).elementsOf f) :=
    List.foldl_hom (fun s : Deletions R F => (s.frameworks f, s.elementsOf f))
      fun s o => (view_operate r f s o).symm
  rw [hops, Prod.mk.injEq] at hview
  exact ⟨ops, hmeets, hview.2.symm, frameworks_postprocess r _ f hview.1 hview.2⟩

/-! ## Isolation -/

/-- Everything that was deleted was deleted by the request that queued it, and no record was
    stored under its key in between. -/
def Isolated (s : Deletions R F) : Prop :=
  ∀ x ∈ s.removed, x.deletion.request = x.request ∧ x.deletion.renewed = false

/-- The condition on the next event: no queued request begins while deletions are queued, only
    queued requests queue deletions, and only while no other queued request is under way, and no
    record is stored under a key whose deletion is queued. -/
def OneAtATime (queued : R → Bool) (s : Deletions R F) : DeletionEvent R F → Prop
  | .receive r => queued r = true → s.deleteElements = []
  | .operate r _ (.queue _) =>
    queued r = true ∧ ∀ r', queued r' = true → s.running r' = true → r' = r
  | .operate _ f (.store taskId _) =>
    ∀ p ∈ s.deleteElements, p.framework = f → p.element ≠ ⟨.tasks, taskId⟩
  | _ => True

/-- The handler object before the first request. -/
def start (frameworks : F → Framework) : Deletions R F := { frameworks }

/-- What the condition keeps true: a deletion that is queued belongs to every queued request
    that is under way, and its element was not stored anew. -/
structure Owned (queued : R → Bool) (s : Deletions R F) : Prop where
  owner : ∀ p ∈ s.deleteElements, ∀ r, queued r = true → s.running r = true → p.request = r
  fresh : ∀ p ∈ s.deleteElements, p.renewed = false
  isolated : s.Isolated

variable {queued : R → Bool} {s : Deletions R F}

omit [DecidableEq R] in
theorem Owned.operate (h : Owned queued s) {r : R} {f : F} {o : Operation}
    (hc : OneAtATime queued s (.operate r f o)) : Owned queued (s.operate r f o) := by
  cases o with
  | assign framework => exact ⟨h.owner, h.fresh, h.isolated⟩
  | queue element =>
    obtain ⟨-, honly⟩ := hc
    refine ⟨fun p hp r' hq hrun => ?_, fun p hp => ?_, h.isolated⟩
    · rcases List.mem_append.mp hp with hp | hp
      · exact h.owner p hp r' hq hrun
      · rw [List.mem_singleton.mp hp]
        exact (honly r' hq hrun).symm
    · rcases List.mem_append.mp hp with hp | hp
      · exact h.fresh p hp
      · rw [List.mem_singleton.mp hp]
  | store taskId record =>
    -- by the condition there is nothing to mark
    have hsame : (s.deleteElements.map fun p =>
        if p.framework = f ∧ p.element = ⟨.tasks, taskId⟩ then { p with renewed := true } else p) =
        s.deleteElements := by
      refine (List.map_congr_left fun p hp => ?_).trans (List.map_id _)
      have hne : ¬(p.framework = f ∧ p.element = ⟨.tasks, taskId⟩) := fun h' => hc p hp h'.1 h'.2
      simp only [hne, if_false, id]
    refine ⟨fun p hp => ?_, fun p hp => ?_, h.isolated⟩
    · rw [Deletions.operate, hsame] at hp
      exact h.owner p hp
    · rw [Deletions.operate, hsame] at hp
      exact h.fresh p hp
  | replaceTaskDict framework =>
    refine ⟨fun p hp => ?_, fun p hp => ?_, h.isolated⟩
    · exact h.owner p (List.mem_filter.mp hp).1
    · exact h.fresh p (List.mem_filter.mp hp).1

omit [DecidableEq R] in
theorem Owned.isolated_postprocess (h : Owned queued s) {r : R} (hq : queued r = true)
    (hrun : s.running r = true) : (s.postprocess r).Isolated := by
  intro x hx
  rcases List.mem_append.mp hx with hx | hx
  · exact h.isolated x hx
  · obtain ⟨p, hp, rfl⟩ := List.mem_map.mp hx
    have hmem := (List.mem_filter.mp hp).1
    exact ⟨h.owner p hmem r hq hrun, h.fresh p hmem⟩

theorem Owned.step (h : Owned queued s) {e : DeletionEvent R F} (hc : OneAtATime queued s e) :
    Owned queued (step queued s e) := by
  have hstop : ∀ r : R, ∀ r', Function.update s.running r false r' = true →
      s.running r' = true := by
    intro r r' hr'
    by_cases heq : r' = r
    · rw [heq, Function.update_self] at hr'
      cases hr'
    · rw [Function.update_of_ne heq] at hr'
      exact hr'
  cases e with
  | receive r =>
    refine ⟨fun p hp r' hq hrun => ?_, h.fresh, h.isolated⟩
    by_cases heq : r' = r
    · have hnil : s.deleteElements = [] := hc (heq ▸ hq)
      have hmem : p ∈ s.deleteElements := hp
      rw [hnil] at hmem
      cases hmem
    · have hrun' : Function.update s.running r true r' = true := hrun
      rw [Function.update_of_ne heq] at hrun'
      exact h.owner p hp r' hq hrun'
  | operate r f o =>
    rw [Deletions.step]
    split
    · exact h.operate hc
    · exact h
  | postprocess r =>
    rw [Deletions.step]
    split
    · rename_i hr
      obtain ⟨hq, hrun⟩ := Bool.and_eq_true_iff.mp hr
      refine ⟨fun p hp => ?_, fun p hp => ?_, h.isolated_postprocess hq hrun⟩
      · cases hp
      · cases hp
    · exact h
  | finish r =>
    exact ⟨fun p hp r' hq hrun => h.owner p hp r' hq (hstop r r' hrun), h.fresh, h.isolated⟩

/-- In every run whose events meet the condition, everything that was deleted was deleted by the
    request that queued it, and was not stored anew in between. -/
theorem deletions_isolated (queued : R → Bool) (frameworks : F → Framework)
    (events : List (DeletionEvent R F))
    (h : Run.Meets (step queued) (OneAtATime queued) (start frameworks) events) :
    Isolated (events.foldl (step queued) (start frameworks)) := by
  have hstart : Owned queued (start frameworks : Deletions R F) := by
    refine ⟨fun p hp => ?_, fun p hp => ?_, fun x hx => ?_⟩
    · cases hp
    · cases hp
    · cases hx
  have hstep : ∀ (s : Deletions R F) (e : DeletionEvent R F),
      Owned queued s → OneAtATime queued s e → Owned queued (step queued s e) :=
    fun _ _ hs hc => hs.step hc
  exact (Run.invariant hstep hstart h).isolated

namespace Sample

/-- Two frameworks, each with a task "t". -/
def twoFrameworks : Bool → Framework := fun _ =>
  Sample.start.framework.setTask "t" { taskInfo := Sample.task "t", state := .running }

/-- Queued requests are even, HTTP calls odd. -/
def even (r : Nat) : Bool := r % 2 == 0

/-- Two queued requests, one after the other: the first one removes a task of its framework. -/
def inTurn : List (DeletionEvent Nat Bool) :=
  [.receive 0, .operate 0 true (.queue ⟨.tasks, "t"⟩), .postprocess 0,
   .receive 2, .operate 2 true (.store "t" { taskInfo := Sample.task "t", state := .staging }),
   .postprocess 2]

/-- While a kill of one framework is suspended in `send_status_update`, a request of the other
    framework is post-processed. -/
def overlapping : List (DeletionEvent Nat Bool) :=
  [.receive 0, .operate 0 true (.queue ⟨.tasks, "t"⟩), .receive 2, .postprocess 2]

/-- An HTTP call kills a task, and a queued request launches it again. -/
def launchedAgain : List (DeletionEvent Nat Bool) :=
  [.receive 1, .operate 1 true (.queue ⟨.tasks, "t"⟩), .finish 1,
   .receive 0, .operate 0 true (.store "t" { taskInfo := Sample.task "t", state := .staging }),
   .postprocess 0]

end Sample

/-- Requests that are handled in turn delete their own elements only. -/
theorem deletions_isolated_inTurn :
    Isolated (Sample.inTurn.foldl (step Sample.even) (start Sample.twoFrameworks)) := by
  have honly : ∀ r', Function.update (fun _ : Nat => false) 0 true r' = true → r' = 0 := by
    intro r' hr'
    by_contra hne
    rw [Function.update_of_ne hne] at hr'
    cases hr'
  refine deletions_isolated Sample.even Sample.twoFrameworks Sample.inTurn
    ⟨fun _ => rfl, ⟨rfl, fun r' _ => honly r'⟩, trivial, fun _ => ?_, ?_, trivial, trivial⟩
  · decide +kernel
  · intro p hp
    have hnil : p ∈ ([] : List (Pending Nat Bool)) := hp
    cases hnil

/-- A deletion is carried out by a request of another framework while the handler that queued it
    is still running; and a task that was launched again is removed by the deletion that an
    earlier HTTP call had queued. -/
theorem deletions_mixed_up :
    ((Sample.overlapping.foldl (step Sample.even) (start Sample.twoFrameworks)).running 0 = true ∧
      "t" ∉ ((Sample.overlapping.foldl (step Sample.even)
        (start Sample.twoFrameworks)).frameworks true).tasks ∧
      ¬Isolated (Sample.overlapping.foldl (step Sample.even) (start Sample.twoFrameworks))) ∧
    ("t" ∉ ((Sample.launchedAgain.foldl (step Sample.even)
        (start Sample.twoFrameworks)).frameworks true).tasks ∧
      ¬Isolated (Sample.launchedAgain.foldl (step Sample.even) (start Sample.twoFrameworks))) := by
  have hother : ∃ x ∈ (Sample.overlapping.foldl (step Sample.even)
      (start Sample.twoFrameworks)).removed, x.deletion.request ≠ x.request := by decide +kernel
  have hrenewed : ∃ x ∈ (Sample.launchedAgain.foldl (step Sample.even)
      (start Sample.twoFrameworks)).removed, x.deletion.renewed = true := by decide +kernel
  refine ⟨⟨by decide +kernel, by decide +kernel, fun h => ?_⟩, by decide +kernel, fun h => ?_⟩
  · obtain ⟨x, hx, hne⟩ := hother
    exact hne (h x hx).1
  · obtain ⟨x, hx, hnew⟩ := hrenewed
    rw [(h x hx).2] at hnew
    cases hnew

end Deletions

end Urb
