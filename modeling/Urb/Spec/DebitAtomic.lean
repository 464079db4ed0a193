import Urb.Native.Entry
import Urb.Spec.PortArithmetic
import Urb.Spec.Resources

/-!
# Debits that raise

`__debit_resources` takes the resources of a task one after the other. When one of them
cannot be taken it raises, and those before it stay taken: `launch_tasks` has sent the task
to the executor runner by then, and nothing gives the resources back.

What a debit that raises leaves behind is determined by the resources in front of the first
one that cannot be taken (`untilFailure`).
-/

namespace Urb

open EStateM (Keeps Triple after_bind get_apply)

variable {s s' : Slave} {r : Resource}

/-! ## What a slave has to give -/

/-- The ranges of a custom resource. -/
def Slave.customRanges (s : Slave) (name : String) : Option (List PortRange) :=
  match s.customResources.bind (·.lookup name) with
  | some (.ranges list) => some list
  | _ => none

/-- The two records agree on the resources and on the number of tasks. -/
structure SameResources (s s' : Slave) : Prop where
  scalar : ∀ name, s'.scalar name = s.scalar name
  hasScalar : ∀ name, s'.hasScalar name = s.hasScalar name
  customRanges : ∀ name, s'.customRanges name = s.customRanges name
  ports : s'.ports = s.ports
  taskCount : s'.taskCount = s.taskCount

theorem SameResources.refl (s : Slave) : SameResources s s :=
  ⟨fun _ => rfl, fun _ => rfl, fun _ => rfl, rfl, rfl⟩

theorem SameResources.builtin (h : SameResources s s') :
    s'.cpus = s.cpus ∧ s'.mem = s.mem ∧ s'.disk = s.disk ∧ s'.gpus = s.gpus := by
  have hcpus := h.scalar "cpus"
  have hmem := h.scalar "mem"
  have hdisk := h.scalar "disk"
  have hgpus := h.scalar "gpus"
  have hdefined := h.hasScalar "gpus"
  simp only [Slave.scalar, String.reduceEq, if_true, if_false] at hcpus hmem hdisk hgpus
  simp only [Slave.hasScalar, isBuiltin] at hdefined
  refine ⟨hcpus, hmem, hdisk, ?_⟩
  -- an absent `gpus` counts as zero, so that both facts about it are needed
  cases hg : s.gpus <;> cases hg' : s'.gpus <;> simp_all

variable {sign : ℚ} {ports : List PortRange → List PortRange → Except PyError (List PortRange)}

/-! ## Ranges of custom resources are never adjusted -/

theorem customRanges_insert_scalar {custom : Dict CustomResource} {name : String}
    {v w : ℚ} (hc : s.customResources = some custom) (hv : custom.lookup name = some (.scalar v))
    (n : String) :
    { s with customResources := some (custom.insert name (.scalar w)) }.customRanges n =
      s.customRanges n := by
  by_cases hn : n = name
  · subst hn
    simp [Slave.customRanges, hc, hv]
  · simp [Slave.customRanges, hc, AList.lookup_insert_ne hn]

theorem adjustBuiltin_customRanges (name : String) (delta : ℚ) :
    Keeps (fun s s' : Slave => s'.customRanges = s.customRanges)
      (adjustBuiltin name delta) := by
  intro s
  unfold adjustBuiltin
  simp only [after_bind, get_apply]
  repeat' split
  all_goals rfl

theorem adjustCustom_customRanges (name : String) (delta : ℚ) :
    Keeps (fun s s' : Slave => s'.customRanges = s.customRanges)
      (adjustCustom name delta) := by
  intro s
  unfold adjustCustom
  simp only [after_bind, get_apply]
  split
  · rfl
  · rename_i custom hc
    split
    · rfl
    · rfl
    · rename_i v hv
      exact funext (customRanges_insert_scalar hc hv)

theorem adjustResource_customRanges (r : Resource) :
    Keeps (fun s s' : Slave => s'.customRanges = s.customRanges)
      (adjustResource ports sign r) := by
  intro s
  unfold adjustResource
  split
  · cases hr : r.ranges with
    | none => rfl
    | some ranges =>
      simp only [orRaise, after_bind, EStateM.pure_apply, get_apply]
      split <;> rfl
  · split
    · cases hr : r.scalar with
      | none => rfl
      | some value => exact adjustBuiltin_customRanges r.name (sign * value) s
    · split
      · cases hr : r.scalar with
        | none => rfl
        | some value => exact adjustCustom_customRanges r.name (sign * value) s
      · rfl

/-! ## The resources in front of the first failure -/

instance (s : Slave) (r : Resource) : Decidable (r.Fits s) :=
  inferInstanceAs (Decidable (r.isScalar → r.scalar.isSome ∧ s.hasScalar r.name))

/-- The resources in front of the first one that cannot be adjusted, and the ports that are
    held when it is reached; `none` if all can be adjusted. -/
def untilFailure (ports : List PortRange → List PortRange → Except PyError (List PortRange))
    (s : Slave) : List PortRange → List Resource → Option (List Resource × List PortRange)
  | _, [] => none
  | held, r :: rs =>
    if r.Fits s then
      match portStep ports held r with
      | some left => (untilFailure ports s left rs).map fun p => (r :: p.1, p.2)
      | none => some ([], held)
    else some ([], held)

theorem untilFailure_of_not {held : List PortRange}
    (h : ¬(r.Fits s ∧ (portStep ports held r).isSome)) (rs : List Resource) :
    untilFailure ports s held (r :: rs) = some ([], held) := by
  unfold untilFailure
  split
  · rename_i hf
    cases hp : portStep ports held r with
    | none => rfl
    | some left => exact absurd ⟨hf, by simp [hp]⟩ h
  · rfl

theorem untilFailure_of_step {held left : List PortRange}
    (hf : r.Fits s) (hp : portStep ports held r = some left) (rs : List Resource) :
    untilFailure ports s held (r :: rs) =
      (untilFailure ports s left rs).map fun p => (r :: p.1, p.2) := by
  simp only [untilFailure, hf, hp, if_true]

theorem Moved.untilFailure_eq {d : String → ℚ} (h : Moved s s' d)
    (held : List PortRange) (rs : List Resource) :
    untilFailure ports s' held rs = untilFailure ports s held rs := by
  induction rs generalizing held with
  | nil => rfl
  | cons r rs ih =>
    by_cases hok : r.Fits s ∧ (portStep ports held r).isSome
    · obtain ⟨hf, hp⟩ := hok
      obtain ⟨left, hp⟩ := Option.isSome_iff_exists.mp hp
      rw [untilFailure_of_step hf hp, untilFailure_of_step ((h.fits_iff r).mpr hf) hp, ih]
    · have hok' : ¬(r.Fits s' ∧ (portStep ports held r).isSome) := by rwa [h.fits_iff]
      rw [untilFailure_of_not hok, untilFailure_of_not hok']

/-- A list of resources that cannot be adjusted is adjusted up to the first one that raises. -/
theorem adjustResources_failure (rs : List Resource) (s : Slave) :
    Triple (· = s) (adjustResources ports sign rs)
      (fun _ _ => untilFailure ports s s.ports rs = none)
      (fun s' => ∃ done held, untilFailure ports s s.ports rs = some (done, held) ∧
        (Moved s s' fun n => sign * amountOf done n) ∧ s'.ports = held ∧
        s'.customRanges = s.customRanges) := by
  induction rs generalizing s with
  | nil => exact .pure fun _ _ => rfl
  | cons r rs ih =>
    have hstep : Triple (· = s) (adjustResource ports sign r)
        (fun _ s1 => ((Moved s s1 fun n => sign * r.amount n) ∧ r.Fits s ∧
          portStep ports s.ports r = some s1.ports) ∧ s1.customRanges = s.customRanges)
        (fun s1 => (s1 = s ∧ ¬(r.Fits s ∧ (portStep ports s.ports r).isSome)) ∧
          s1.customRanges = s.customRanges) :=
      (adjustResource_spec r s).and <| .of_after fun s' hs' => by
        subst hs'
        exact adjustResource_customRanges r s'
    refine .bind (hstep.weaken (fun _ h => h) (fun _ _ h => h) ?_) ?_
    · rintro s' ⟨⟨rfl, hr⟩, -⟩
      exact ⟨[], s'.ports, untilFailure_of_not hr rs, by simpa using Moved.refl s', rfl, rfl⟩
    · rintro - s1 ⟨⟨h1, hfit, hport⟩, hrange⟩
      -- the rest of the list starts from the slave that the first resource leaves
      have huntil : untilFailure ports s s.ports (r :: rs) =
          (untilFailure ports s1 s1.ports rs).map fun p => (r :: p.1, p.2) := by
        rw [untilFailure_of_step hfit hport, h1.untilFailure_eq]
      refine Triple.weaken (ih s1) (fun s2 (h : s2 = s1) => h) ?_ ?_ s1 rfl
      · intro _ _ hnone
        rw [huntil, hnone, Option.map_none]
      · rintro s2 ⟨done, held, hsome, h2, hheld, hrange2⟩
        refine ⟨r :: done, held, ?_, ?_, hheld, hrange2.trans hrange⟩
        · rw [huntil, hsome, Option.map_some]
        · simpa [mul_add] using h1.trans h2

/-! ## Debits -/

/-- A debit that raises leaves the resources of the slave and its number of tasks as they
    were. -/
def AllOrNothing (env : Env) (task : TaskInfo) (s : Slave) : Prop :=
  ∀ e s', debitResources env task s = .error e s' → SameResources s s'

/-- The resources that stand in the task in front of the first one that cannot be taken cancel
    out: they ask for nothing in total, and the ports they take are none. -/
def CancelsOut (env : Env) (task : TaskInfo) (s : Slave) : Prop :=
  ∀ done held, untilFailure env.portSubtract s s.ports (task.resources.getD []) =
    some (done, held) →
    (∀ name, amountOf done name = 0) ∧ held = s.ports

theorem debitResources_failure (env : Env) (task : TaskInfo) (s : Slave) :
    Triple (· = s) (debitResources env task)
      (fun _ _ => untilFailure env.portSubtract s s.ports (task.resources.getD []) = none)
      (fun s' => SameResources s s' ∧ task.resources = none ∨
        ∃ done held,
          untilFailure env.portSubtract s s.ports (task.resources.getD []) = some (done, held) ∧
          (Moved s s' fun n => -amountOf done n) ∧ s'.ports = held ∧
          s'.customRanges = s.customRanges) := by
  refine .bind ((orRaise_spec _ _ (· = s)).weaken (fun _ h => h) (fun _ _ h => h) ?_) ?_
  · rintro s' ⟨hnone, rfl⟩
    exact Or.inl ⟨SameResources.refl s', hnone⟩
  · intro rs s' ⟨hrs, hs'⟩
    simp only [hrs, Option.getD_some]
    refine Triple.bind ((adjustResources_failure rs s).weaken (fun _ h => h)
      (fun _ _ h => h) ?_) (fun _ => .modify fun _ h => h) s' hs'
    rintro s1 ⟨done, held, hsome, h1, hheld, hrange⟩
    exact Or.inr ⟨done, held, hsome, by simpa using h1, hheld, hrange⟩

/-- A task that asks for a CPU and for a resource that the configuration does not define. -/
def Sample.licensedTask : TaskInfo :=
  { task "t" with
    resources := some [{ name := "cpus", type := .scalar, scalar := some 1 },
      { name := "licenses", type := .scalar, scalar := some 1 }] }

open PortRangeUtility (add add_kept)

theorem PortRange.covers_toDict (r : PortRange) (p : Int) :
    r.toDict.Covers p ↔ r.first ≤ p ∧ p ≤ r.last := by
  simp [toDict, PortRangeDict.Covers, Bound.value?]

theorem PortRange.wellFormed_toDict (r : PortRange) : r.toDict.WellFormed ↔ r.first ≤ r.last := by
  simp [toDict, PortRangeDict.WellFormed, Bound.value?]

/-- The ports of the resource, if it is one, are disjoint ranges. -/
def Resource.PortsDisjoint (r : Resource) : Prop := r.name = "ports" →
  ∃ ranges, r.ranges = some ranges ∧ DisjointRanges (ranges.map PortRange.toDict)

theorem portsOk_add {held : List PortRange} {rs : List Resource}
    (hheld : DisjointRanges (held.map PortRange.toDict)) (hrs : ∀ r ∈ rs, r.PortsDisjoint) :
    PortsOk (onPorts add) held rs := by
  induction rs generalizing held with
  | nil => trivial
  | cons r rs ih =>
    obtain ⟨hr, hrs⟩ := List.forall_mem_cons.mp hrs
    by_cases hp : r.name = "ports"
    · obtain ⟨ranges, hranges, hgiven⟩ := hr hp
      obtain ⟨S, hS, hsingle⟩ := add_kept hheld hgiven
      exact ⟨S, by simp [portStep, hp, hranges, onPorts, hS], ih hsingle.disjoint hrs⟩
    · exact ⟨held, by simp [portStep, hp], ih hheld hrs⟩

/-- With the arithmetic of `PortRangeUtility`, a credit of disjoint ports raises only if the slave
    lacks a resource of the task. -/
theorem credit_returns_iff (env : Env) (henv : env.portAdd = onPorts add) (task : TaskInfo)
    (s : Slave) (hs : DisjointRanges (s.ports.map PortRange.toDict))
    (hrs : ∀ r ∈ task.resources.getD [], r.PortsDisjoint) :
    (∃ s', creditResources env task s = .ok () s') ↔
      ∀ r ∈ task.resources.getD [], r.Fits s := by
  have hspec := creditResources_spec env task s s rfl
  cases hcredit : creditResources env task s with
  | ok a s' =>
    rw [hcredit] at hspec
    exact iff_of_true ⟨s', rfl⟩ hspec.2.fits
  | error e s' =>
    rw [hcredit] at hspec
    refine iff_of_false (by simp) fun hfits => hspec.2 ⟨hfits, ?_⟩
    exact henv ▸ portsOk_add hs hrs

/-- A task gives two ranges of ports back to a slave that has another one. -/
theorem credit_returns_ports : ∃ s', creditResources { Sample.env with portAdd := onPorts add }
    { Sample.task "t" with resources := some [{ name := "cpus", type := .scalar, scalar := some 1 },
      { name := "ports", type := .ranges, ranges := some [⟨20, 21⟩, ⟨30, 30⟩] }] }
    { Sample.freshSlave with ports := [⟨10, 12⟩] } = .ok () s' := by
  refine (credit_returns_iff _ rfl _ _ ?_ ?_).mpr (by decide)
  · exact ⟨by simp [PortRange.wellFormed_toDict], by simp⟩
  · simp only [Option.getD_some, List.mem_cons, List.not_mem_nil, or_false, forall_eq_or_imp,
      forall_eq, Resource.PortsDisjoint]
    refine ⟨nofun, fun _ => ⟨_, rfl, ?_⟩⟩
    exact ⟨by simp [PortRange.wellFormed_toDict], by simp [PortRange.covers_toDict]; omega⟩

end Urb
