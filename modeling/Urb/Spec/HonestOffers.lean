import Urb.Spec.OneOffer

/-!
# What an offer of a slave is worth

`__build_offer` makes no offer for a slave that has nothing left of its CPUs, memory or disk.
It tests for zero exactly. The amounts of tasks are fractions, and nothing stops a debit
below zero, so that a slave may have half a CPU left or less than nothing; `int` then rounds
what is offered towards zero.
-/

namespace Urb

open Sample (env freshSlave)

/-! ## Rounding -/

theorem toInt_nonpos {q : ℚ} (hq : q ≤ 0) : toInt q ≤ 0 := by
  have hnum : q.num ≤ 0 := Rat.num_nonpos.mpr hq
  have hneg : toInt q = -((-q.num).tdiv q.den) := by rw [toInt, Int.neg_tdiv, neg_neg]
  have hquot : 0 ≤ (-q.num).tdiv q.den := Int.tdiv_nonneg (by omega) (Int.natCast_nonneg _)
  omega

/-- Something is left of an amount after rounding if it is at least one. -/
theorem toInt_pos_iff (q : ℚ) : 0 < toInt q ↔ 1 ≤ q := by
  by_cases hq : 0 ≤ q
  · rw [toInt_eq_floor hq, Int.floor_pos]
  · have hle := toInt_nonpos (le_of_not_ge hq)
    constructor
    · intro h
      omega
    · intro h
      linarith

/-- A rounded amount is positive and no more than the amount exactly if that is at least
    one. -/
theorem toInt_within_iff (q : ℚ) : 0 < (toInt q : ℚ) ∧ (toInt q : ℚ) ≤ q ↔ 1 ≤ q := by
  rw [Int.cast_pos, toInt_pos_iff]
  constructor
  · exact fun h => h.1
  · exact fun h => ⟨h, toInt_le (by linarith)⟩

/-! ## What the slave can give -/

/-- The slave can give what the offer lists as this resource: some of its CPUs, memory and
    disk, ports that are free, or one of its custom resources. -/
structure Slave.Gives (x : Slave) (r : Resource) : Prop where
  amount : r.name ∈ ["cpus", "mem", "disk"] →
    ∃ v, r.scalar = some v ∧ 0 < v ∧ v ≤ x.scalar r.name
  ports : r.name = "ports" →
    ∃ ranges, r.ranges = some ranges ∧ ∀ port, Within port ranges → Within port x.ports
  custom : r.name ∉ ["cpus", "mem", "disk", "ports", "gpus"] →
    ∃ c, (x.customResources.getD ∅).lookup r.name = some c ∧ r = c.resource r.name

/-- The offer that is built for the slave without `force` has CPUs, memory and disk, and the
    slave can give all that it lists. -/
def Slave.OfferedHonestly (x : Slave) : Prop :=
  ∀ frameworkId offerId slaveId offer,
    buildOfferUnforced frameworkId offerId slaveId x = some offer →
      (∀ name ∈ ["cpus", "mem", "disk"], ∃ r ∈ offer.resources, r.name = name) ∧
      ∀ r ∈ offer.resources, x.Gives r

/-- The slave has at least one whole unit of each resource, and its custom resources by the
    name of another resource do not exceed that one. -/
structure Slave.Whole (x : Slave) : Prop where
  cpus : 1 ≤ x.cpus
  mem : 1 ≤ x.mem
  disk : 1 ≤ x.disk
  custom : ∀ name c, (x.customResources.getD ∅).lookup name = some c →
    name ∈ ["cpus", "mem", "disk", "ports"] → x.Gives (c.resource name)

theorem CustomResource.resource_name (c : CustomResource) (name : String) :
    (c.resource name).name = name := by
  cases c <;> rfl

theorem Slave.gives_amount_iff (x : Slave) (name : String)
    (hname : name ∈ ["cpus", "mem", "disk"]) (q : ℚ) :
    x.Gives { name, type := .scalar, scalar := some q } ↔ 0 < q ∧ q ≤ x.scalar name := by
  constructor
  · intro h
    obtain ⟨v, hv, hpos, hle⟩ := h.amount hname
    obtain rfl : q = v := Option.some.inj hv
    exact ⟨hpos, hle⟩
  · intro h
    refine ⟨fun _ => ⟨q, rfl, h⟩, fun hports => ?_, fun hcustom => ?_⟩
    · simp [show name = "ports" from hports] at hname
    · simp only [List.mem_cons, List.not_mem_nil, or_false, not_or] at hname hcustom
      tauto

theorem Slave.gives_ports (x : Slave) :
    x.Gives { name := "ports", type := .ranges, ranges := some x.ports } :=
  ⟨by simp, fun _ => ⟨x.ports, rfl, fun _ h => h⟩, by simp⟩

theorem Slave.gives_gpus (x : Slave) (q : ℚ) :
    x.Gives { name := "gpus", type := .scalar, scalar := some q } :=
  ⟨by simp, by simp, by simp⟩

theorem Slave.gives_custom {x : Slave} {name : String} {c : CustomResource}
    (hc : (x.customResources.getD ∅).lookup name = some c)
    (hname : name ∉ ["cpus", "mem", "disk", "ports"]) : x.Gives (c.resource name) := by
  simp only [List.mem_cons, List.not_mem_nil, or_false, not_or] at hname
  obtain ⟨hcpus, hmem, hdisk, hports⟩ := hname
  refine ⟨?_, ?_, ?_⟩
  · simp [c.resource_name, hcpus, hmem, hdisk]
  · simp [c.resource_name, hports]
  · intro _
    rw [c.resource_name]
    exact ⟨c, hc, rfl⟩

/-! ## The resources of an offer -/

/-- What is listed for a slave: the four resources that each slave has, its GPUs, and its custom
    resources. -/
theorem forall_buildResources_iff (x : Slave) : (∀ r ∈ buildResources x, x.Gives r) ↔ x.Whole := by
  have hcpus := x.gives_amount_iff "cpus" (by simp) (toInt x.cpus)
  have hmem := x.gives_amount_iff "mem" (by simp) (toInt x.mem)
  have hdisk := x.gives_amount_iff "disk" (by simp) (toInt x.disk)
  simp only [Slave.scalar, String.reduceEq, if_true, if_false, toInt_within_iff]
    at hcpus hmem hdisk
  constructor
  · intro h
    simp only [buildResources, List.forall_mem_append, List.forall_mem_cons,
      List.forall_mem_map] at h
    obtain ⟨⟨⟨h1, h2, h3, -⟩, -⟩, hcustom⟩ := h
    exact ⟨hcpus.mp h1, hmem.mp h2, hdisk.mp h3, fun name c hc _ =>
      hcustom ⟨name, c⟩ (AList.mem_lookup_iff.mp hc)⟩
  · intro h
    simp only [buildResources, List.forall_mem_append, List.forall_mem_cons,
      List.forall_mem_map]
    refine ⟨⟨⟨hcpus.mpr h.cpus, hmem.mpr h.mem, hdisk.mpr h.disk, x.gives_ports, by simp⟩, ?_⟩, ?_⟩
    · cases x.gpus with
      | none => simp
      | some g =>
        dsimp only
        split
        · simp
        · simpa using x.gives_gpus (toInt g)
    · intro e he
      have hc := AList.mem_lookup_iff.mpr he
      by_cases hname : e.1 ∈ ["cpus", "mem", "disk", "ports"]
      · exact h.custom e.1 e.2 hc hname
      · exact Slave.gives_custom hc hname

/-- The offer of a slave is honest exactly if there is none, or if the slave has at least one
    unit of each resource. -/
theorem offer_honest_iff (x : Slave) :
    x.OfferedHonestly ↔ (x.cpus = 0 ∨ x.mem = 0 ∨ x.disk = 0) ∨ x.Whole := by
  by_cases hzero : x.cpus = 0 ∨ x.mem = 0 ∨ x.disk = 0
  · simp [Slave.OfferedHonestly, buildOfferUnforced, hzero]
  · rw [← forall_buildResources_iff]
    simp only [Slave.OfferedHonestly, buildOfferUnforced, hzero, if_false, false_or]
    constructor
    · intro h
      exact (h "" 0 "" _ rfl).2
    · rintro h frameworkId offerId slaveId offer hoffer
      cases hoffer
      refine ⟨?_, h⟩
      simp [buildOffer, buildResources]

/-- A task that takes three and a half CPUs. -/
def Sample.fractionalTask : TaskInfo :=
  { task "t" with
    resources := some [{ name := "cpus", type := .scalar, scalar := some (7 / 2) }] }

/-- Half a CPU is left of the four that the slave had. The offer for it lists no CPU. -/
theorem offer_of_half_a_cpu : ¬((debitResources env Sample.fractionalTask).after
      freshSlave).OfferedHonestly := by
  have hcpus : ((debitResources env Sample.fractionalTask).after freshSlave).cpus =
      4 + -1 * (7 / 2) := rfl
  have hmem : ((debitResources env Sample.fractionalTask).after freshSlave).mem =
      1024 := rfl
  have hdisk : ((debitResources env Sample.fractionalTask).after freshSlave).disk =
      1024 := rfl
  generalize (debitResources env Sample.fractionalTask).after freshSlave = x at *
  intro h
  have hbuilt : buildOfferUnforced "" 0 "" x = some (buildOffer "" 0 "" x) :=
    if_neg (by norm_num [hcpus, hmem, hdisk])
  have hwhole := (forall_buildResources_iff x).mp (h "" 0 "" _ hbuilt).2
  have := hwhole.cpus
  norm_num [hcpus] at this

end Urb
