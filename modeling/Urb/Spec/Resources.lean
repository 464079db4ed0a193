import Mathlib.Algebra.Order.Ring.Rat
import Mathlib.Algebra.Order.BigOperators.Group.List
import Mathlib.Tactic.Linarith
import Urb.Native.Handler

/-!
# Arithmetic of slave resources

What `__debit_resources` and `__credit_resources` do to the scalar resources of a
slave. Both may raise in the middle of the list of resources; the resources before
that point stay adjusted, and the task count is then left alone.
-/

namespace Urb

open EStateM (Triple)

variable {name : String} (s : Slave) (delta : ℚ)

/-- What a slave has left of a scalar resource. A resource it does not define counts as
    zero. -/
def Slave.scalar (s : Slave) (name : String) : ℚ :=
  if name = "cpus" then s.cpus
  else if name = "mem" then s.mem
  else if name = "disk" then s.disk
  else if name = "gpus" then s.gpus.getD 0
  else
    match s.customResources.bind (·.lookup name) with
    | some (.scalar v) => v
    | _ => 0

/-- Does the slave define the scalar resource? -/
def Slave.hasScalar (s : Slave) (name : String) : Bool :=
  if isBuiltin name then name != "gpus" || s.gpus.isSome
  else
    match s.customResources.bind (·.lookup name) with
    | some (.scalar _) => true
    | _ => false

/-- The resources that `__debit_resources` and `__credit_resources` treat as scalars. -/
def Resource.isScalar (r : Resource) : Bool :=
  r.name != "ports" && (isBuiltin r.name || r.type == .scalar)

/-- The slave defines the resource, if it is a scalar, and the resource has an amount. -/
def Resource.Fits (s : Slave) (r : Resource) : Prop :=
  r.isScalar → r.scalar.isSome ∧ s.hasScalar r.name

/-- What a resource of a task asks of a scalar resource of the slave. -/
def Resource.amount (r : Resource) (name : String) : ℚ :=
  if r.isScalar ∧ r.name = name then r.scalar.getD 0 else 0

/-- What the resources of a task ask in total of a scalar resource of the slave. -/
def amountOf (rs : List Resource) (name : String) : ℚ := (rs.map (·.amount name)).sum

@[simp] theorem amountOf_nil (name : String) : amountOf [] name = 0 := rfl

@[simp] theorem amountOf_cons (r : Resource) (rs : List Resource) (name : String) :
    amountOf (r :: rs) name = r.amount name + amountOf rs name := by
  simp [amountOf]

/-- No resource of the list has a negative amount. -/
def NonNeg (rs : List Resource) : Prop := ∀ r ∈ rs, 0 ≤ r.scalar.getD 0

instance (rs : List Resource) : Decidable (NonNeg rs) :=
  inferInstanceAs (Decidable (∀ r ∈ rs, 0 ≤ r.scalar.getD 0))

theorem Resource.amount_nonneg {r : Resource} (h : 0 ≤ r.scalar.getD 0) (name : String) :
    0 ≤ r.amount name := by
  unfold Resource.amount
  split
  · exact h
  · exact le_refl 0

theorem NonNeg.amountOf_nonneg {rs : List Resource} (h : NonNeg rs) (name : String) :
    0 ≤ amountOf rs name := by
  induction rs with
  | nil => simp
  | cons r rs ih =>
    have hr := Resource.amount_nonneg (h r (by simp)) name
    have hrs := ih fun r' hr' => h r' (by simp [hr'])
    rw [amountOf_cons]
    linarith

theorem NonNeg.amountOf_prefix {rs rs' : List Resource} (h : NonNeg rs) (hp : rs' <+: rs)
    (name : String) : 0 ≤ amountOf rs' name ∧ amountOf rs' name ≤ amountOf rs name := by
  obtain ⟨rest, rfl⟩ := hp
  have h1 : NonNeg rs' := fun r hr => h r (List.mem_append_left _ hr)
  have h2 : NonNeg rest := fun r hr => h r (List.mem_append_right _ hr)
  have := h2.amountOf_nonneg name
  refine ⟨h1.amountOf_nonneg name, ?_⟩
  simp only [amountOf, List.map_append, List.sum_append]
  simp only [amountOf] at this
  linarith

/-! ## One resource -/

/-- The scalars of the slave moved by the given amounts; apart from its resources the slave
    is the same. -/
structure Moved (s s' : Slave) (d : String → ℚ) : Prop where
  scalar : ∀ name, s'.scalar name = s.scalar name + d name
  hasScalar : ∀ name, s'.hasScalar name = s.hasScalar name
  rest : s' = { s with
    cpus := s'.cpus, mem := s'.mem, disk := s'.disk, gpus := s'.gpus, ports := s'.ports,
    customResources := s'.customResources }

theorem Moved.taskCount {s s' : Slave} {d : String → ℚ} (h : Moved s s' d) :
    s'.taskCount = s.taskCount := by rw [h.rest]

theorem Moved.refl : Moved s s fun _ => 0 := ⟨fun _ => by simp, fun _ => rfl, rfl⟩

theorem Moved.trans {s1 s2 s3 : Slave} {d d' : String → ℚ} (h : Moved s1 s2 d)
    (h' : Moved s2 s3 d') : Moved s1 s3 fun name => d name + d' name := by
  refine ⟨fun name => by rw [h'.scalar, h.scalar, add_assoc],
    fun name => (h'.hasScalar name).trans (h.hasScalar name), ?_⟩
  have hr := h'.rest
  rw [h.rest] at hr
  exact hr

variable {sign : ℚ} {ports : List PortRange → List PortRange → Except PyError (List PortRange)}

theorem moved_ports (s : Slave) (left : List PortRange) :
    Moved s { s with ports := left } fun _ => 0 :=
  ⟨fun _ => by simp [Slave.scalar], fun _ => rfl, rfl⟩

private theorem moved_cpus :
    Moved s { s with cpus := s.cpus + delta } fun n => if "cpus" = n then delta else 0 :=
  ⟨fun n => by by_cases h : n = "cpus" <;> simp [Slave.scalar, h, eq_comm], fun _ => rfl, rfl⟩

private theorem moved_mem :
    Moved s { s with mem := s.mem + delta } fun n => if "mem" = n then delta else 0 :=
  ⟨fun n => by by_cases h : n = "mem" <;> simp [Slave.scalar, h, eq_comm], fun _ => rfl, rfl⟩

private theorem moved_disk :
    Moved s { s with disk := s.disk + delta } fun n => if "disk" = n then delta else 0 :=
  ⟨fun n => by by_cases h : n = "disk" <;> simp [Slave.scalar, h, eq_comm], fun _ => rfl, rfl⟩

private theorem moved_gpus (g : ℚ) (hg : s.gpus = some g) :
    Moved s { s with gpus := some (g + delta) } fun n => if "gpus" = n then delta else 0 :=
  ⟨fun n => by by_cases h : n = "gpus" <;> simp [Slave.scalar, h, hg, eq_comm],
    fun n => by simp [Slave.hasScalar, hg], rfl⟩

theorem adjustBuiltin_spec (hb : isBuiltin name) (delta : ℚ) (s : Slave) :
    Triple (· = s) (adjustBuiltin name delta)
      (fun _ s' => (Moved s s' fun n => if name = n then delta else 0) ∧ s'.ports = s.ports ∧
        s.hasScalar name)
      (fun s' => s' = s ∧ ¬s.hasScalar name) := by
  refine .get_bind fun s' hs' => ?_
  subst hs'
  refine .ite (fun h => ?_) fun h1 => .ite (fun h => ?_) fun h2 => .ite (fun h => ?_) fun h3 => ?_
  · subst h; exact .set fun _ _ => ⟨moved_cpus _ _, rfl, rfl⟩
  · subst h; exact .set fun _ _ => ⟨moved_mem _ _, rfl, rfl⟩
  · subst h; exact .set fun _ _ => ⟨moved_disk _ _, rfl, rfl⟩
  · have h : name = "gpus" := by simpa [isBuiltin, h1, h2, h3] using hb
    subst h
    split
    · rename_i g hg
      exact .set fun _ _ => ⟨moved_gpus _ _ g hg, rfl, by simp [Slave.hasScalar, hb, hg]⟩
    · rename_i hg
      exact .throw fun _ h => ⟨h, by simp [Slave.hasScalar, isBuiltin, hg]⟩

private theorem moved_custom (hb : ¬isBuiltin name) (s : Slave) (delta v : ℚ)
    (custom : Dict CustomResource) (hc : s.customResources = some custom)
    (hv : custom.lookup name = some (.scalar v)) :
    Moved s { s with customResources := some (custom.insert name (.scalar (v + delta))) }
      fun n => if name = n then delta else 0 := by
  have hb' := hb
  simp only [isBuiltin, Bool.or_eq_true, beq_iff_eq, not_or] at hb'
  obtain ⟨⟨⟨h1, h2⟩, h3⟩, h4⟩ := hb'
  refine ⟨fun n => ?_, fun n => ?_, rfl⟩
  · by_cases hn : name = n
    · subst hn
      simp [Slave.scalar, hc, hv, h1, h2, h3, h4]
    · have hne : n ≠ name := fun e => hn e.symm
      simp [Slave.scalar, hc, hn, AList.lookup_insert_ne hne]
  · by_cases hn : name = n
    · subst hn
      simp [Slave.hasScalar, hc, hv, hb]
    · have hne : n ≠ name := fun e => hn e.symm
      simp [Slave.hasScalar, hc, AList.lookup_insert_ne hne]

theorem adjustCustom_spec (hb : ¬isBuiltin name) (delta : ℚ) (s : Slave) :
    Triple (· = s) (adjustCustom name delta)
      (fun _ s' => (Moved s s' fun n => if name = n then delta else 0) ∧ s'.ports = s.ports ∧
        s.hasScalar name)
      (fun s' => s' = s ∧ ¬s.hasScalar name) := by
  refine .get_bind fun s' hs' => ?_
  subst hs'
  split
  · rename_i hc
    exact .throw fun _ h => ⟨h, by simp [Slave.hasScalar, hb, hc]⟩
  · rename_i custom hc
    split
    · rename_i hv
      exact .throw fun _ h => ⟨h, by simp [Slave.hasScalar, hb, hc, hv]⟩
    · rename_i hv
      exact .throw fun _ h => ⟨h, by simp [Slave.hasScalar, hb, hc, hv]⟩
    · rename_i v hv
      exact .set fun _ _ =>
        ⟨moved_custom hb _ _ v custom hc hv, rfl, by simp [Slave.hasScalar, hb, hc, hv]⟩

theorem orRaise_spec {σ α : Type} (o : Option α) (e : PyError) (P : σ → Prop) :
    Triple P (orRaise o e) (fun a s => o = some a ∧ P s) (fun s => o = none ∧ P s) := by
  cases o with
  | none => exact .throw fun _ h => ⟨rfl, h⟩
  | some a => exact .pure fun _ h => ⟨rfl, h⟩

/-- The ports that are left when a resource is taken or given back; `none` where that
    raises. -/
def portStep (ports : List PortRange → List PortRange → Except PyError (List PortRange))
    (held : List PortRange) (r : Resource) : Option (List PortRange) :=
  if r.name = "ports" then
    match r.ranges with
    | none => none
    | some ranges =>
      match ports held ranges with
      | .ok left => some left
      | .error _ => none
  else some held

/-- The port ranges of the resources can be taken or given back one after the other. -/
def PortsOk (ports : List PortRange → List PortRange → Except PyError (List PortRange)) :
    List PortRange → List Resource → Prop
  | _, [] => True
  | held, r :: rs => ∃ left, portStep ports held r = some left ∧ PortsOk ports left rs

private theorem mul_amount {r : Resource} {value : ℚ} (h : r.isScalar)
    (hv : r.scalar = some value) :
    (fun n => sign * r.amount n) = fun n => if r.name = n then sign * value else 0 := by
  funext n
  simp only [Resource.amount, h, hv, true_and, Option.getD_some]
  split <;> simp

theorem adjustResource_spec (r : Resource) (s : Slave) :
    Triple (· = s) (adjustResource ports sign r)
      (fun _ s' => (Moved s s' fun n => sign * r.amount n) ∧ r.Fits s ∧
        portStep ports s.ports r = some s'.ports)
      (fun s' => s' = s ∧ ¬(r.Fits s ∧ (portStep ports s.ports r).isSome)) := by
  refine .ite (fun hp => ?_) fun hp => .ite (fun hb => ?_) fun hb =>
    .ite (fun ht => ?_) fun ht => ?_
  · have hscalar : r.isScalar = false := by simp [Resource.isScalar, hp]
    have hamount : ∀ n, r.amount n = 0 := fun n => by simp [Resource.amount, hscalar]
    refine .bind ((orRaise_spec r.ranges _ (· = s)).weaken (fun _ h => h) (fun _ _ h => h) ?_) ?_
    · rintro s' ⟨hr, rfl⟩
      exact ⟨rfl, by simp [portStep, hp, hr]⟩
    · intro ranges
      refine .get_bind fun s' hs' => ?_
      obtain ⟨hr, rfl⟩ := hs'
      split
      · rename_i left hl
        exact .set fun _ _ => ⟨by simpa [hamount] using moved_ports s' left,
          by simp [Resource.Fits, hscalar], by simp [portStep, hp, hr, hl]⟩
      · rename_i e he
        exact .throw fun _ h => ⟨h, by simp [portStep, hp, hr, he]⟩
  · have hscalar : r.isScalar = true := by simp [Resource.isScalar, hp, hb]
    refine .bind ((orRaise_spec r.scalar _ (· = s)).weaken (fun _ h => h) (fun _ _ h => h) ?_) ?_
    · rintro s' ⟨hr, rfl⟩
      exact ⟨rfl, by simp [Resource.Fits, hscalar, hr]⟩
    · intro value s' ⟨hv, hs'⟩
      rw [mul_amount hscalar hv]
      exact (adjustBuiltin_spec hb (sign * value) s).weaken (fun _ h => h)
        (fun _ s' h => ⟨h.1, fun _ => ⟨by simp [hv], h.2.2⟩, by simp [portStep, hp, h.2.1]⟩)
        (fun s' h => ⟨h.1, fun hf => h.2 (hf.1 hscalar).2⟩) s' hs'
  · have hscalar : r.isScalar = true := by simp [Resource.isScalar, hp, ht]
    refine .bind ((orRaise_spec r.scalar _ (· = s)).weaken (fun _ h => h) (fun _ _ h => h) ?_) ?_
    · rintro s' ⟨hr, rfl⟩
      exact ⟨rfl, by simp [Resource.Fits, hscalar, hr]⟩
    · intro value s' ⟨hv, hs'⟩
      rw [mul_amount hscalar hv]
      exact (adjustCustom_spec hb (sign * value) s).weaken (fun _ h => h)
        (fun _ s' h => ⟨h.1, fun _ => ⟨by simp [hv], h.2.2⟩, by simp [portStep, hp, h.2.1]⟩)
        (fun s' h => ⟨h.1, fun hf => h.2 (hf.1 hscalar).2⟩) s' hs'
  · have hscalar : r.isScalar = false := by simp [Resource.isScalar, hb, ht]
    have hamount : ∀ n, r.amount n = 0 := fun n => by simp [Resource.amount, hscalar]
    refine .pure fun s' hs' => ?_
    subst hs'
    exact ⟨by simpa [hamount] using Moved.refl s', by simp [Resource.Fits, hscalar],
      by simp [portStep, hp]⟩

/-! ## The resources of a task -/

/-- All resources of a task can be taken from, or given back to, the slave. -/
structure Adjustable
    (ports : List PortRange → List PortRange → Except PyError (List PortRange))
    (s : Slave) (rs : List Resource) : Prop where
  fits : ∀ r ∈ rs, r.Fits s
  portsOk : PortsOk ports s.ports rs

theorem Moved.fits_iff {s s' : Slave} {d : String → ℚ} (h : Moved s s' d) (r : Resource) :
    r.Fits s' ↔ r.Fits s := by
  simp only [Resource.Fits, h.hasScalar]

theorem adjustResources_spec (rs : List Resource) (s : Slave) :
    Triple (· = s) (adjustResources ports sign rs)
      (fun _ s' => (Moved s s' fun n => sign * amountOf rs n) ∧ Adjustable ports s rs)
      (fun s' => (∃ done, done <+: rs ∧ Moved s s' fun n => sign * amountOf done n) ∧
        ¬Adjustable ports s rs) := by
  induction rs generalizing s with
  | nil =>
    refine .pure fun s' hs' => ?_
    subst hs'
    exact ⟨by simpa using Moved.refl s', by simp, trivial⟩
  | cons r rs ih =>
    refine .bind ((adjustResource_spec r s).weaken (fun _ h => h) (fun _ _ h => h) ?_) ?_
    · rintro s' ⟨rfl, hr⟩
      refine ⟨⟨[], List.nil_prefix, by simpa using Moved.refl s'⟩, fun hadj => hr ⟨?_, ?_⟩⟩
      · exact hadj.fits r (by simp)
      · obtain ⟨left, hl, _⟩ := hadj.portsOk
        simp [hl]
    · rintro - s1 ⟨h1, hfit, hport⟩
      -- the rest of the list starts from the slave that the first resource leaves
      have hiff : Adjustable ports s (r :: rs) ↔ Adjustable ports s1 rs := by
        constructor
        · intro hadj
          obtain ⟨left, hl, hrest⟩ := hadj.portsOk
          rw [hport] at hl
          cases hl
          exact ⟨fun r' hr' => (h1.fits_iff r').mpr (hadj.fits r' (by simp [hr'])), hrest⟩
        · intro hadj
          refine ⟨fun r' hr' => ?_, ⟨_, hport, hadj.portsOk⟩⟩
          obtain rfl | hr' := List.mem_cons.mp hr'
          · exact hfit
          · exact (h1.fits_iff r').mp (hadj.fits r' hr')
      refine Triple.weaken (ih s1) (fun s2 (h : s2 = s1) => h) ?_ ?_ s1 rfl
      · rintro - s2 ⟨h2, hadj⟩
        exact ⟨by simpa [mul_add] using h1.trans h2, hiff.mpr hadj⟩
      · rintro s2 ⟨⟨done, hp, h2⟩, hadj⟩
        exact ⟨⟨r :: done, (List.prefix_cons_inj r).mpr hp, by simpa [mul_add] using h1.trans h2⟩,
          fun h => hadj (hiff.mp h)⟩

/-- `__debit_resources` takes the resources of the task and counts the task, or raises with
    the task not counted. -/
theorem debitResources_spec (env : Env) (task : TaskInfo) (s : Slave) :
    Triple (· = s) (debitResources env task)
      (fun _ s' => (∃ s1, Moved s s1 (fun n => -amountOf (task.resources.getD []) n) ∧
          s' = { s1 with taskCount := s.taskCount + 1 }) ∧
        Adjustable env.portSubtract s (task.resources.getD []))
      (fun s' => ∃ done, done <+: task.resources.getD [] ∧
        Moved s s' fun n => -amountOf done n) := by
  refine .bind ((orRaise_spec _ _ (· = s)).weaken (fun _ h => h) (fun _ _ h => h) ?_) ?_
  · rintro s' ⟨_, rfl⟩
    exact ⟨[], List.nil_prefix, by simpa using Moved.refl s'⟩
  · intro rs s' ⟨hrs, hs'⟩
    simp only [hrs, Option.getD_some]
    refine Triple.bind ((adjustResources_spec rs s).weaken (fun _ h => h)
      (fun _ _ h => h) ?_)
      (fun _ => .modify ?_) s' hs'
    · rintro s1 ⟨⟨done, hp, h⟩, _⟩
      exact ⟨done, hp, by simpa using h⟩
    · intro s1 ⟨h1, hadj⟩
      exact ⟨⟨s1, by simpa using h1, by rw [h1.taskCount]⟩, hadj⟩

/-- `__credit_resources` gives the resources of the task back and discounts the task, or
    raises with the task still counted. -/
theorem creditResources_spec (env : Env) (task : TaskInfo) (s : Slave) :
    Triple (· = s) (creditResources env task)
      (fun _ s' => (∃ s1, Moved s s1 (fun n => amountOf (task.resources.getD []) n) ∧
          s' = { s1 with taskCount := s.taskCount - 1 }) ∧
        Adjustable env.portAdd s (task.resources.getD []))
      (fun s' => (∃ done, done <+: task.resources.getD [] ∧ Moved s s' fun n => amountOf done n) ∧
        ¬Adjustable env.portAdd s (task.resources.getD [])) := by
  refine .bind ((adjustResources_spec _ s).weaken (fun _ h => h) (fun _ _ h => h) ?_)
    (fun _ => .modify ?_)
  · rintro s1 ⟨⟨done, hp, h⟩, hadj⟩
    exact ⟨⟨done, hp, by simpa using h⟩, hadj⟩
  · intro s1 ⟨h1, hadj⟩
    exact ⟨⟨s1, by simpa using h1, by rw [h1.taskCount]⟩, hadj⟩

end Urb
