import Mathlib.Data.Set.Insert
import Urb.Spec.ChoppyRanges

/-!
# What the arithmetic of port ranges computes

`to_choppy_range_tuple` makes a tuple of one port out of every range: the last port, or the first
one if the last one is given as a string. `subtract` and `add` are set operations on these ports.
They are set operations on the ranges only as far as no port is left out that matters.
-/

namespace Urb

open PortRange (toDict)

variable {j k p : Int} {t : RangeTuple}

/-! ## The ports of a list of ranges -/

/-- The number that the bound denotes. -/
def Bound.value? : Bound → Option Int
  | .int n => some n
  | .str text => decimal? text

namespace PortRangeDict

/-- The range has the port. -/
def Covers (r : PortRangeDict) (p : Int) : Prop :=
  ∃ b e, r.first.value? = some b ∧ r.last.value? = some e ∧ b ≤ p ∧ p ≤ e

/-- The bounds are numbers or decimal strings, in the right order. -/
def WellFormed (r : PortRangeDict) : Prop :=
  ∃ b e, r.first.value? = some b ∧ r.last.value? = some e ∧ b ≤ e

/-- The port that `to_choppy_range_tuple` keeps. -/
def kept? (r : PortRangeDict) : Option Int :=
  if r.last.isString then r.first.value? else r.last.value?

end PortRangeDict

/-- The ports of a list of ranges. -/
def ports (l : List PortRangeDict) : Set Int := {p | ∃ r ∈ l, r.Covers p}

/-- The ports that are kept. -/
def keptPorts (l : List PortRangeDict) : Set Int := {p | ∃ r ∈ l, r.kept? = some p}

/-- The ranges are well formed and no two of them have a port in common. -/
structure DisjointRanges (l : List PortRangeDict) : Prop where
  wellFormed : ∀ r ∈ l, r.WellFormed
  disjoint : l.Pairwise fun r r' => ∀ p, r.Covers p → ¬r'.Covers p

theorem Bound.toInt_of_value? {b : Bound} {n : Int} (h : b.value? = some n) : b.toInt = .ok n := by
  cases b with
  | int m => cases h; rfl
  | str text => rw [toInt, show decimal? text = some n from h]

namespace PortRangeDict

variable {r : PortRangeDict}

theorem WellFormed.kept (h : r.WellFormed) :
    ∃ k, r.kept? = some k ∧ r.Covers k ∧ PortRangeUtility.toChoppyRangeTuple r = .ok ⟨k, k, 1⟩ := by
  obtain ⟨b, e, hb, he, hle⟩ := h
  by_cases hstring : r.last.isString
  · refine ⟨b, ?_, ⟨b, e, hb, he, le_refl b, hle⟩, ?_⟩
    · rw [kept?, if_pos hstring, hb]
    · rw [PortRangeUtility.toChoppyRangeTuple, Bound.toInt_of_value? hb, if_pos hstring]
      rfl
  · refine ⟨e, ?_, ⟨b, e, hb, he, hle, le_refl e⟩, ?_⟩
    · rw [kept?, if_neg hstring, he]
    · rw [PortRangeUtility.toChoppyRangeTuple, Bound.toInt_of_value? hb, if_neg hstring,
        Bound.toInt_of_value? he]
      rfl

end PortRangeDict

/-! ## Sets of single ports -/

/-- The tuple of a single port. -/
def point (k : Int) : RangeTuple := ⟨k, k, 1⟩

theorem point_injective : Function.Injective point := fun _ _ h => congrArg RangeTuple.start h

theorem point_le : point j ≤ point k ↔ j ≤ k := by
  show (point j).key ≤ (point k).key ↔ j ≤ k
  simp only [RangeTuple.key, point, Prod.Lex.toLex_le_toLex]
  omega

theorem point_lt : point j < point k ↔ j < k := by
  rw [← not_le, point_le, not_le]

theorem point_eq_grid (k : Int) : point k = .grid 0 1 k k := by simp [point, RangeTuple.grid]

theorem onGrid_point (k : Int) : (point k).OnGrid 0 1 := ⟨k, k, le_refl k, point_eq_grid k⟩

theorem covers_point : (PortRangeUtility.toPortRange (point k)).toDict.Covers p ↔ p = k := by
  constructor
  · rintro ⟨b, e, hb, he, hle⟩
    cases hb
    cases he
    exact le_antisymm hle.2 hle.1
  · rintro rfl
    exact ⟨p, p, rfl, rfl, le_refl p, le_refl p⟩

theorem minus_point (j k : Int) : (point j).minus (point k) = if j = k then [] else [point j] := by
  rw [point_eq_grid, point_eq_grid, RangeTuple.minus_grid one_pos, RangeTuple.cut]
  by_cases hjk : j = k
  · rw [if_neg (by omega), if_neg (by omega), if_neg (by omega), if_pos hjk]
    rfl
  · rw [if_pos (by omega), if_neg hjk]

/-- The set has the tuples of these ports, and no other ones. -/
structure ChoppyRange.Holds (c : ChoppyRange) (K : Set Int) : Prop where
  mem : ∀ t, t ∈ c.choppyRange ↔ ∃ k ∈ K, t = point k
  step : c.step = none ∨ c.step = some 1

namespace ChoppyRange

variable {c : ChoppyRange} {K : Set Int}

theorem Holds.empty : Holds {} ∅ :=
  ⟨fun _ => ⟨fun h => absurd h List.not_mem_nil, fun ⟨_, hk, _⟩ => absurd hk id⟩, Or.inl rfl⟩

theorem Holds.point_mem (h : c.Holds K) : point k ∈ c.choppyRange ↔ k ∈ K := by
  rw [h.mem]
  constructor
  · rintro ⟨j, hj, heq⟩
    exact point_injective heq ▸ hj
  · exact fun hk => ⟨k, hk, rfl⟩

theorem Holds.onGrid (h : c.Holds K) : c.OnGrid 0 1 where
  pos := one_pos
  grid t ht := by
    obtain ⟨k, -, rfl⟩ := (h.mem t).mp ht
    exact onGrid_point k
  disjoint t ht u hu hlt := by
    obtain ⟨j, -, rfl⟩ := (h.mem t).mp ht
    obtain ⟨k, -, rfl⟩ := (h.mem u).mp hu
    exact point_lt.mp hlt
  step := h.step

theorem Holds.insert (h : c.Holds K) (hk : k ∈ K → c.ignoreOverlaps = true) :
    ∃ c', c.insert (point k) = .ok c' ∧ c'.Holds (K ∪ {k}) ∧
      c'.ignoreOverlaps = c.ignoreOverlaps := by
  by_cases hmem : k ∈ K
  · have hcontains : c.choppyRange.contains (point k) = true := h.onGrid.sound.contains_iff.mpr
      ⟨point k, h.point_mem.mpr hmem, IntervalSet.overlaps_iff.mpr ⟨le_refl k, le_refl k⟩⟩
    rw [h.onGrid.insert_eq (onGrid_point k)]
    simp only [IntervalSet.insert, if_pos hcontains, if_pos (hk hmem)]
    have hunion : K ∪ {k} = K := Set.union_eq_self_of_subset_right fun _ hj => hj ▸ hmem
    rw [hunion]
    exact ⟨_, rfl, ⟨h.mem, Or.inr rfl⟩, rfl⟩
  · have hfree : ∀ t ∈ c.choppyRange, IntervalSet.overlaps (point k) t = false := by
      intro t ht
      obtain ⟨j, hj, rfl⟩ := (h.mem t).mp ht
      have hne : k ≠ j := fun heq => hmem (heq ▸ hj)
      exact IntervalSet.overlaps_eq_false.mpr (show k < j ∨ j < k by omega)
    obtain ⟨c', hc', h', hignore, hmem'⟩ := h.onGrid.insert (onGrid_point k) hfree
    refine ⟨c', hc', ⟨fun t => ?_, h'.step⟩, hignore⟩
    rw [hmem', h.mem]
    constructor
    · rintro (rfl | ⟨j, hj, rfl⟩)
      · exact ⟨k, Or.inr rfl, rfl⟩
      · exact ⟨j, Or.inl hj, rfl⟩
    · rintro ⟨j, hj | rfl, rfl⟩
      · exact Or.inr ⟨j, hj, rfl⟩
      · exact Or.inl rfl

theorem Holds.remove (h : c.Holds K) (k : Int) :
    ∃ c', c.remove (point k) = .ok c' ∧ c'.Holds (K \ {k}) := by
  rw [remove_eq]
  obtain ⟨c', hc', h', hmem'⟩ := h.onGrid.subtractTuple (onGrid_point k)
    (h.onGrid.sound.oneAbove rfl)
  refine ⟨c', hc', fun t => ?_, h'.step⟩
  rw [hmem']
  constructor
  · rintro ⟨u, hu, ht⟩
    obtain ⟨j, hj, rfl⟩ := (h.mem u).mp hu
    rw [minus_point] at ht
    split at ht
    · cases ht
    · rename_i hne
      exact ⟨j, ⟨hj, hne⟩, List.mem_singleton.mp ht⟩
  · rintro ⟨j, ⟨hj, hne⟩, rfl⟩
    refine ⟨point j, h.point_mem.mpr hj, ?_⟩
    rw [minus_point, if_neg (show j ≠ k from hne)]
    exact List.mem_singleton_self _

end ChoppyRange

/-! ## Lists of ranges -/

namespace PortRangeUtility

open ChoppyRange

variable {c : ChoppyRange} {K : Set Int} {l : List PortRangeDict}

theorem keptPorts_cons (r : PortRangeDict) (l : List PortRangeDict)
    (hk : r.kept? = some k) : keptPorts (r :: l) = {k} ∪ keptPorts l := by
  ext p
  constructor
  · rintro ⟨r', hr', hp⟩
    rcases List.mem_cons.mp hr' with rfl | hr'
    · exact Or.inl (Option.some.inj (hp.symm.trans hk))
    · exact Or.inr ⟨r', hr', hp⟩
  · rintro (rfl | ⟨r', hr', hp⟩)
    · exact ⟨r, List.mem_cons_self, hk⟩
    · exact ⟨r', List.mem_cons_of_mem r hr', hp⟩

theorem insertAll_holds (hc : c.Holds K) (hl : ∀ r ∈ l, r.WellFormed)
    (hnew : c.ignoreOverlaps = true ∨
      (l.Pairwise fun r r' => r.kept? ≠ r'.kept?) ∧ ∀ r ∈ l, ∀ k, r.kept? = some k → k ∉ K) :
    ∃ c', insertAll c l = .ok c' ∧ c'.Holds (K ∪ keptPorts l) := by
  induction l generalizing c K with
  | nil =>
    refine ⟨c, rfl, ?_⟩
    rwa [show keptPorts [] = ∅ from by simp [keptPorts], Set.union_empty]
  | cons r l ih =>
    obtain ⟨k, hk, -, htuple⟩ := (hl r List.mem_cons_self).kept
    have hfree : k ∈ K → c.ignoreOverlaps = true := by
      rcases hnew with hignore | ⟨-, hnew⟩
      · exact fun _ => hignore
      · exact fun hmem => absurd hmem (hnew r List.mem_cons_self k hk)
    obtain ⟨c1, hc1, hholds, hignore⟩ := hc.insert hfree
    have hrest : c1.ignoreOverlaps = true ∨ (l.Pairwise fun r r' => r.kept? ≠ r'.kept?) ∧
        ∀ r' ∈ l, ∀ k', r'.kept? = some k' → k' ∉ K ∪ {k} := by
      rcases hnew with hnew | ⟨hdistinct, hnew⟩
      · exact Or.inl (hignore.trans hnew)
      · obtain ⟨hr, hdistinct⟩ := List.pairwise_cons.mp hdistinct
        refine Or.inr ⟨hdistinct, fun r' hr' k' hk' => ?_⟩
        rintro (hmem | rfl)
        · exact hnew r' (List.mem_cons_of_mem r hr') k' hk' hmem
        · exact hr r' hr' (hk.trans hk'.symm)
    obtain ⟨c', hc', hholds'⟩ :=
      ih hholds (fun r' hr' => hl r' (List.mem_cons_of_mem r hr')) hrest
    refine ⟨c', ?_, ?_⟩
    · rw [insertAll, List.foldlM_cons, htuple]
      simp only [bind, Except.bind]
      rw [show c.insert ⟨k, k, 1⟩ = .ok c1 from hc1]
      exact hc'
    · rwa [keptPorts_cons r l hk, ← Set.union_assoc]

theorem removeAll_holds (hc : c.Holds K) (hl : ∀ r ∈ l, r.WellFormed) :
    ∃ c', l.foldlM (fun c r => do c.remove (← toChoppyRangeTuple r)) c = .ok c' ∧
      c'.Holds (K \ keptPorts l) := by
  induction l generalizing c K with
  | nil =>
    refine ⟨c, rfl, ?_⟩
    rwa [show keptPorts [] = ∅ from by simp [keptPorts], Set.sdiff_empty]
  | cons r l ih =>
    obtain ⟨k, hk, -, htuple⟩ := (hl r List.mem_cons_self).kept
    obtain ⟨c1, hc1, hholds⟩ := hc.remove k
    obtain ⟨c', hc', hholds'⟩ := ih hholds fun r' hr' => hl r' (List.mem_cons_of_mem r hr')
    refine ⟨c', ?_, ?_⟩
    · rw [List.foldlM_cons, htuple]
      simp only [bind, Except.bind]
      rw [show c.remove ⟨k, k, 1⟩ = .ok c1 from hc1]
      exact hc'
    · rwa [keptPorts_cons r l hk, ← Set.sdiff_sdiff]

/-- Disjoint ranges of one port each, which are these ports. -/
structure SinglePorts (l : List PortRange) (K : Set Int) : Prop where
  single : ∀ r ∈ l, r.first = r.last
  disjoint : DisjointRanges (l.map toDict)
  ports : ports (l.map toDict) = K

theorem toPortRangeList_holds (hc : c.Holds K) : SinglePorts (toPortRangeList c) K := by
  have hpoint : ∀ t ∈ c.choppyRange.toList, ∃ k ∈ K, t = point k := fun t ht => (hc.mem t).mp ht
  have hmap : (toPortRangeList c).map toDict =
      c.choppyRange.toList.map fun t => (toPortRange t).toDict := List.map_map
  refine ⟨?_, ⟨?_, ?_⟩, ?_⟩
  · intro r hr
    obtain ⟨t, ht, rfl⟩ := List.mem_map.mp hr
    obtain ⟨k, -, rfl⟩ := hpoint t ht
    rfl
  all_goals rw [hmap]
  · intro r hr
    obtain ⟨t, ht, rfl⟩ := List.mem_map.mp hr
    obtain ⟨k, -, rfl⟩ := hpoint t ht
    exact ⟨k, k, rfl, rfl, le_refl k⟩
  · refine List.pairwise_map.mpr (c.choppyRange.sorted.imp_of_mem fun ht hu hlt p => ?_)
    obtain ⟨j, -, rfl⟩ := hpoint _ ht
    obtain ⟨k, -, rfl⟩ := hpoint _ hu
    intro hp hp'
    have hjk := point_lt.mp hlt
    have hpj := covers_point.mp hp
    have hpk := covers_point.mp hp'
    omega
  · ext p
    constructor
    · rintro ⟨r, hr, hp⟩
      obtain ⟨t, ht, rfl⟩ := List.mem_map.mp hr
      obtain ⟨k, hk, rfl⟩ := hpoint t ht
      exact covers_point.mp hp ▸ hk
    · intro hp
      exact ⟨_, List.mem_map_of_mem ((hc.mem _).mpr ⟨p, hp, rfl⟩), covers_point.mpr rfl⟩

theorem distinct_of_disjoint (hl : DisjointRanges l) :
    l.Pairwise fun r r' => r.kept? ≠ r'.kept? := by
  refine hl.disjoint.imp_of_mem fun hr hr' hdisjoint heq => ?_
  obtain ⟨k, hk, hcovers, -⟩ := (hl.wellFormed _ hr).kept
  obtain ⟨k', hk', hcovers', -⟩ := (hl.wellFormed _ hr').kept
  rw [heq, hk'] at hk
  cases hk
  exact hdisjoint k hcovers hcovers'

theorem toChoppyRange_holds (hl : DisjointRanges l) :
    ∃ c, toChoppyRange l = .ok c ∧ c.Holds (keptPorts l) := by
  obtain ⟨c, hc, hholds⟩ := insertAll_holds Holds.empty hl.wellFormed
    (Or.inr ⟨distinct_of_disjoint hl, fun _ _ _ _ hk => hk⟩)
  exact ⟨c, hc, by rwa [Set.empty_union] at hholds⟩

variable {A B : List PortRangeDict}

theorem subtract_kept (hA : DisjointRanges A) (hB : DisjointRanges B) :
    ∃ D, subtract A B = .ok D ∧ SinglePorts D (keptPorts A \ keptPorts B) := by
  obtain ⟨c, hc, hholds⟩ := toChoppyRange_holds hA
  obtain ⟨c', hc', hholds'⟩ := removeAll_holds hholds hB.wellFormed
  refine ⟨toPortRangeList c', ?_, toPortRangeList_holds hholds'⟩
  rw [subtract, hc]
  simp only [bind, Except.bind] at hc' ⊢
  rw [hc']
  rfl

theorem add_kept (hA : DisjointRanges A) (hB : DisjointRanges B) :
    ∃ S, add A B = .ok S ∧ SinglePorts S (keptPorts A ∪ keptPorts B) := by
  obtain ⟨c, hc, hholds⟩ := toChoppyRange_holds hA
  have hignore : Holds { c with ignoreOverlaps := true } (keptPorts A) := ⟨hholds.mem, hholds.step⟩
  obtain ⟨c', hc', hholds'⟩ := insertAll_holds hignore hB.wellFormed (Or.inl rfl)
  refine ⟨toPortRangeList c', ?_, toPortRangeList_holds hholds'⟩
  rw [add, hc]
  simp only [bind, Except.bind]
  rw [hc']
  rfl

/-! ## Set arithmetic -/

/-- `subtract` and `add` are difference and union, as disjoint ranges, and adding what was
    subtracted gives back what was there. -/
structure SetArithmetic (A B : List PortRangeDict) : Prop where
  subtract : ∃ D, subtract A B = .ok D ∧ DisjointRanges (D.map toDict) ∧
    ports (D.map toDict) = ports A \ ports B
  add : ∃ S, add A B = .ok S ∧ DisjointRanges (S.map toDict) ∧
    ports (S.map toDict) = ports A ∪ ports B
  undo : ports B ⊆ ports A → ∃ D S, PortRangeUtility.subtract A B = .ok D ∧
    PortRangeUtility.add (D.map toDict) B = .ok S ∧
    DisjointRanges (S.map toDict) ∧ ports (S.map toDict) = ports A

theorem keptPorts_subset (hl : DisjointRanges l) : keptPorts l ⊆ ports l := by
  rintro p ⟨r, hr, hp⟩
  obtain ⟨k, hk, hcovers, -⟩ := (hl.wellFormed r hr).kept
  cases hp.symm.trans hk
  exact ⟨r, hr, hcovers⟩

theorem SinglePorts.keptPorts {l : List PortRange} (h : SinglePorts l K) :
    keptPorts (l.map toDict) = K := by
  refine Set.Subset.antisymm (fun p hp => h.ports ▸ keptPorts_subset h.disjoint hp) ?_
  rw [← h.ports]
  rintro p ⟨_, hmem, b, e, hb, he, hle⟩
  obtain ⟨r, hr, rfl⟩ := List.mem_map.mp hmem
  cases hb
  cases he
  have hsingle := h.single r hr
  exact ⟨r.toDict, hmem, congrArg some (by omega)⟩

theorem kept_of_covers (hl : DisjointRanges l) {r : PortRangeDict} (hr : r ∈ l)
    (hp : r.Covers p) (hkept : p ∈ keptPorts l) : r.kept? = some p := by
  obtain ⟨r', hr', hp'⟩ := hkept
  obtain ⟨k, hk, hcovers, -⟩ := (hl.wellFormed r' hr').kept
  cases hp'.symm.trans hk
  by_cases heq : r = r'
  · exact heq ▸ hp'
  · have : Std.Symm fun r r' : PortRangeDict => ∀ p, r.Covers p → ¬r'.Covers p :=
      ⟨fun _ _ h p hp hp' => h p hp' hp⟩
    exact absurd hcovers (hl.disjoint.forall hr hr' heq p hp)

/-- The arithmetic of port ranges is that of sets exactly if every range of the second list is a
    single port, and every port of the first list that is not kept is in the second one. -/
theorem port_arithmetic_iff (hA : DisjointRanges A) (hB : DisjointRanges B) : SetArithmetic A B ↔
      (∀ r ∈ B, ∀ p q, r.Covers p → r.Covers q → p = q) ∧
      ∀ r ∈ A, ∀ p, r.Covers p → r.kept? ≠ some p → p ∈ ports B := by
  obtain ⟨D, hD, hD'⟩ := subtract_kept hA hB
  obtain ⟨S, hS, hS'⟩ := add_kept hA hB
  constructor
  · intro h
    obtain ⟨_, hsubtract, -, hsub⟩ := h.subtract
    obtain ⟨_, hunion, -, hadd⟩ := h.add
    cases hD.symm.trans hsubtract
    cases hS.symm.trans hunion
    rw [hD'.ports] at hsub
    rw [hS'.ports] at hadd
    -- a port of the second list is kept there, since it is not in the difference
    have hkept : ports B ⊆ keptPorts B := by
      intro p hp
      have hmem : p ∈ keptPorts A ∪ keptPorts B := hadd ▸ Or.inr hp
      by_contra hnot
      have : p ∈ ports A \ ports B := hsub ▸ ⟨hmem.resolve_right hnot, hnot⟩
      exact this.2 hp
    constructor
    · intro r hr p q hp hq
      have hp' := kept_of_covers hB hr hp (hkept ⟨r, hr, hp⟩)
      have hq' := kept_of_covers hB hr hq (hkept ⟨r, hr, hq⟩)
      exact Option.some.inj (hp'.symm.trans hq')
    · intro r hr p hp hne
      have hmem : p ∈ keptPorts A ∪ keptPorts B := hadd ▸ Or.inl ⟨r, hr, hp⟩
      rcases hmem with hmem | hmem
      · exact absurd (kept_of_covers hA hr hp hmem) hne
      · exact keptPorts_subset hB hmem
  · rintro ⟨hsingle, hother⟩
    have hB' : keptPorts B = ports B := by
      refine (keptPorts_subset hB).antisymm ?_
      rintro p ⟨r, hr, hp⟩
      obtain ⟨k, hk, hcovers, -⟩ := (hB.wellFormed r hr).kept
      exact ⟨r, hr, hsingle r hr k p hcovers hp ▸ hk⟩
    have hA' : ∀ p ∈ ports A, p ∈ keptPorts A ∨ p ∈ ports B := by
      rintro p ⟨r, hr, hp⟩
      by_cases hk : r.kept? = some p
      · exact Or.inl ⟨r, hr, hk⟩
      · exact Or.inr (hother r hr p hp hk)
    have hsub : keptPorts A \ keptPorts B = ports A \ ports B := by
      rw [hB']
      ext p
      constructor
      · exact fun hp => ⟨keptPorts_subset hA hp.1, hp.2⟩
      · exact fun hp => ⟨(hA' p hp.1).resolve_right hp.2, hp.2⟩
    have hadd : keptPorts A ∪ keptPorts B = ports A ∪ ports B := by
      rw [hB']
      ext p
      constructor
      · exact fun hp => hp.imp_left fun h => keptPorts_subset hA h
      · exact fun hp => hp.elim (hA' p) Or.inr
    refine ⟨⟨D, hD, hD'.disjoint, hD'.ports.trans hsub⟩,
      ⟨S, hS, hS'.disjoint, hS'.ports.trans hadd⟩, fun hsubset => ?_⟩
    obtain ⟨T, hT, hT'⟩ := add_kept hD'.disjoint hB
    refine ⟨D, T, hD, hT, hT'.disjoint, ?_⟩
    rw [hT'.ports, hB', hD'.keptPorts, hsub, Set.sdiff_union_self,
      Set.union_eq_self_of_subset_right hsubset]

theorem mem_ports_toDict {l : List PortRange} :
    p ∈ ports (l.map toDict) ↔ ∃ r ∈ l, r.first ≤ p ∧ p ≤ r.last := by
  constructor
  · rintro ⟨_, hmem, _, _, hb, he, hp⟩
    obtain ⟨r, hr, rfl⟩ := List.mem_map.mp hmem
    cases hb
    cases he
    exact ⟨r, hr, hp⟩
  · rintro ⟨r, hr, hp⟩
    exact ⟨r.toDict, List.mem_map_of_mem hr, r.first, r.last, rfl, rfl, hp⟩

theorem disjointRanges_of_lt {l : List PortRange} (hle : ∀ r ∈ l, r.first ≤ r.last)
    (hlt : l.Pairwise fun r r' => r.last < r'.first) :
    DisjointRanges (l.map toDict) where
  wellFormed _ hmem := by
    obtain ⟨r, hr, rfl⟩ := List.mem_map.mp hmem
    exact ⟨r.first, r.last, rfl, rfl, hle r hr⟩
  disjoint := by
    refine List.pairwise_map.mpr (hlt.imp fun {r r'} hlt p => ?_)
    rintro ⟨_, _, hb, he, hp⟩ ⟨_, _, hb', he', hp'⟩
    cases hb
    cases he
    cases hb'
    cases he'
    omega

/-- The port that is not kept of the range is in the second list, where it is given by strings. -/
theorem port_arithmetic_two_ports :
    SetArithmetic [⟨.int 10, .int 11⟩] [⟨.str "10", .str "10"⟩] := by
  have hten : ∀ p, PortRangeDict.Covers ⟨.str "10", .str "10"⟩ p ↔ p = 10 := by
    intro p
    constructor
    · rintro ⟨b, e, hb, he, hp⟩
      cases hb.symm.trans (show decimal? "10" = some 10 by decide)
      cases he.symm.trans (show decimal? "10" = some 10 by decide)
      omega
    · rintro rfl
      exact ⟨10, 10, by decide, by decide, by decide, by decide⟩
  refine (port_arithmetic_iff (disjointRanges_of_lt (l := [⟨10, 11⟩]) (by decide) (by decide))
    ⟨?_, List.pairwise_singleton _ _⟩).mpr ⟨?_, ?_⟩
  · intro r hr
    cases List.mem_singleton.mp hr
    exact ⟨10, 10, by decide, by decide, by decide⟩
  · intro r hr p q hp hq
    cases List.mem_singleton.mp hr
    exact ((hten p).mp hp).trans ((hten q).mp hq).symm
  · intro r hr p hp hne
    cases List.mem_singleton.mp hr
    obtain ⟨b, e, hb, he, hle⟩ := hp
    cases hb
    cases he
    have hp : p ≠ 11 := fun heq => hne (congrArg some heq.symm)
    change 10 ≤ p ∧ p ≤ 11 at hle
    exact ⟨_, List.mem_singleton.mpr rfl, (hten p).mpr (by omega)⟩

/-- Of the ranges 10–20 and 30–40 only the ports 20 and 40 are left when 15–18 and 33–36 are
    subtracted, and adding them gives four single ports. -/
theorem ports_lost :
    let A : List PortRange := [⟨10, 20⟩, ⟨30, 40⟩]
    let B : List PortRange := [⟨15, 18⟩, ⟨33, 36⟩]
    DisjointRanges (A.map toDict) ∧ DisjointRanges (B.map toDict) ∧
      subtract (A.map toDict) (B.map toDict) = .ok [⟨20, 20⟩, ⟨40, 40⟩] ∧
      add (A.map toDict) (B.map toDict) =
        .ok [⟨18, 18⟩, ⟨20, 20⟩, ⟨36, 36⟩, ⟨40, 40⟩] ∧
      ¬SetArithmetic (A.map toDict) (B.map toDict) := by
  intro A B
  have hA : DisjointRanges (A.map toDict) :=
    disjointRanges_of_lt (by decide) (by decide)
  have hB : DisjointRanges (B.map toDict) :=
    disjointRanges_of_lt (by decide) (by decide)
  have hsub : subtract (A.map toDict) (B.map toDict) =
      .ok [⟨20, 20⟩, ⟨40, 40⟩] := by decide +kernel
  refine ⟨hA, hB, hsub, by decide +kernel, fun h => ?_⟩
  obtain ⟨D, hD, -, hports⟩ := h.subtract
  cases hsub.symm.trans hD
  have hten : (10 : Int) ∈
      ports (([⟨20, 20⟩, ⟨40, 40⟩] : List PortRange).map toDict) := by
    rw [hports]
    exact ⟨mem_ports_toDict.mpr (by decide),
      fun hmem => absurd (mem_ports_toDict.mp hmem) (by decide)⟩
  exact absurd (mem_ports_toDict.mp hten) (by decide)

end PortRangeUtility

end Urb
