import Mathlib
import Urb.Native.PortRanges

/-!
# The algebra of range tuples

A tuple denotes the indices from its start up to its stop, in its step. Two tuples that are in step
lie on a `grid`: up to a stop that is never reached they are intervals of the numbers of grid
points, and every operation is one on intervals.
-/

namespace Urb.RangeTuple

open Set (Icc mem_Icc mem_union)

variable {p q t : RangeTuple} {r d a b a' b' i : Int}

/-- The indices of a tuple; the stop is one of them if it is reached. -/
def indices (t : RangeTuple) : Set Int := {i | ∃ n : ℕ, i = t.start + n * t.step ∧ i ≤ t.stop}

def indicesOf (l : List RangeTuple) : Set Int := {i | ∃ t ∈ l, i ∈ t.indices}

theorem indicesOf_pair (t u : RangeTuple) : indicesOf [t, u] = t.indices ∪ u.indices := by
  ext i
  simp [indicesOf]

theorem indicesOf_cons (t : RangeTuple) (l : List RangeTuple) :
    indicesOf (t :: l) = t.indices ∪ indicesOf l := by
  ext i
  simp [indicesOf]

theorem indicesOf_singleton (t : RangeTuple) : indicesOf [t] = t.indices := by
  ext i
  simp [indicesOf]

/-- Two ranges with one step, whose starts are congruent. -/
structure Aligned (p q : RangeTuple) : Prop where
  step : q.step = p.step
  pos : 0 < p.step
  left : p.start ≤ p.stop
  right : q.start ≤ q.stop
  sync : p.step ∣ q.start - p.start

theorem Aligned.symm (h : Aligned p q) : Aligned q p where
  step := h.step.symm
  pos := h.step ▸ h.pos
  left := h.right
  right := h.left
  sync := by
    rw [h.step, ← Int.dvd_neg, Int.neg_sub]
    exact h.sync

/-! ## Tuples on a grid -/

/-- The grid points with the numbers from `a` to `b`. -/
def grid (r d a b : Int) : RangeTuple := ⟨r + a * d, r + b * d, d⟩

theorem point_le (hd : 0 < d) : r + a * d ≤ r + b * d ↔ a ≤ b := by
  rw [Int.add_le_add_iff_left, Int.mul_le_mul_right hd]

theorem point_lt (hd : 0 < d) : r + a * d < r + b * d ↔ a < b := by
  rw [Int.add_lt_add_iff_left, Int.mul_lt_mul_right hd]

theorem point_injective (hd : 0 < d) : Function.Injective fun k : Int => r + k * d := by
  intro k k' h
  have hle := (point_le (r := r) hd).mp (le_of_eq h)
  have hge := (point_le (r := r) hd).mp (ge_of_eq h)
  omega

theorem indices_grid (hd : 0 < d) :
    (grid r d a b).indices = (fun k => r + k * d) '' Icc a b := by
  ext i
  constructor
  · rintro ⟨n, hi, hle⟩
    have hpoint : i = r + (a + n) * d := by rw [hi, grid]; ring
    rw [hpoint] at hle
    have hn := (point_le hd).mp hle
    exact ⟨a + n, ⟨by omega, hn⟩, hpoint.symm⟩
  · rintro ⟨k, ⟨ha, hb⟩, rfl⟩
    refine ⟨(k - a).toNat, ?_, (point_le hd).mpr hb⟩
    rw [Int.toNat_of_nonneg (by omega), grid]
    ring

/-- A stop that is not reached is moved to the last grid point before it. -/
theorem fixIndices_eq (hd : 0 < t.step) (hle : t.start ≤ t.stop) (hr : t.step ∣ t.start - r) :
    ∃ a b, a ≤ b ∧ t.start = r + a * t.step ∧ r + b * t.step ≤ t.stop ∧
      t.stop < r + (b + 1) * t.step ∧ t.fixIndices = .ok (grid r t.step a b) ∧
      t.indices = (grid r t.step a b).indices := by
  obtain ⟨a, ha⟩ := hr
  have hstart : t.start = r + a * t.step := by linarith
  have hdiv : (t.stop - t.start).fdiv t.step = (t.stop - t.start) / t.step :=
    Int.fdiv_eq_ediv_of_nonneg _ hd.le
  set n := (t.stop - t.start) / t.step with hn
  have hn0 : 0 ≤ n := Int.ediv_nonneg (by omega) hd.le
  have hlow : n * t.step ≤ t.stop - t.start := Int.ediv_mul_le _ hd.ne'
  have hhigh : t.stop - t.start < (n + 1) * t.step := Int.lt_ediv_add_one_mul_self _ hd
  have hb : r + (a + n) * t.step ≤ t.stop := by linarith
  have hb' : t.stop < r + (a + n + 1) * t.step := by linarith
  refine ⟨a, a + n, by omega, hstart, hb, hb', ?_, ?_⟩
  · rw [fixIndices, if_neg hd.ne', hdiv]
    simp only [grid, hstart, Except.ok.injEq, mk.injEq, true_and, and_true]
    ring
  · ext i
    simp only [indices, grid, Set.mem_ofPred_eq]
    refine exists_congr fun m => ?_
    rw [hstart]
    refine and_congr_right fun hi => ⟨fun h => ?_, fun h => h.trans hb⟩
    -- a grid point below the stop is not above the last one
    have hpoint : i = r + (a + m) * t.step := by rw [hi]; ring
    rw [hpoint] at h ⊢
    have := (point_lt hd).mp (h.trans_lt hb')
    exact (point_le hd).mpr (by omega)

theorem fixIndices_grid (hd : 0 < d) :
    (grid r d a b).fixIndices = .ok (grid r d a b) := by
  have hdiff : (grid r d a b).stop - (grid r d a b).start = (b - a) * d := by
    simp only [grid]
    ring
  rw [fixIndices, if_neg (by exact hd.ne'), hdiff]
  simp only [grid, Int.mul_fdiv_cancel _ hd.ne', Except.ok.injEq, mk.injEq, true_and, and_true]
  ring

theorem ckAndFix_eq {t u t' u' : RangeTuple} (hstep : t.step = u.step)
    (ht : t.fixIndices = .ok t') (hu : u.fixIndices = .ok u') : t.ckAndFix u = .ok (t', u') := by
  rw [ckAndFix, ckSameStep, if_neg (by simp [hstep]), ht, hu]
  rfl

theorem ckAndFix_grid (hd : 0 < d) :
    (grid r d a b).ckAndFix (grid r d a' b') = .ok (grid r d a b, grid r d a' b') :=
  ckAndFix_eq rfl (fixIndices_grid hd) (fixIndices_grid hd)

/-- The intersection of intervals. -/
theorem intersection_eq {u : RangeTuple} (hd : 0 < d)
    (hck : t.ckAndFix u = .ok (grid r d a b, grid r d a' b')) :
    t.intersection u =
      .ok (if b < a' ∨ b' < a then none else some (grid r d (max a a') (min b b'))) := by
  rw [intersection, hck]
  have hiff : ((grid r d a b).stop < (grid r d a' b').start ∨
      (grid r d a' b').stop < (grid r d a b).start) ↔ b < a' ∨ b' < a := by
    simp only [grid, point_lt hd]
  have hmax : max (r + a * d) (r + a' * d) = r + max a a' * d := by
    rcases le_total a a' with h | h
    · rw [max_eq_right h, max_eq_right ((point_le hd).mpr h)]
    · rw [max_eq_left h, max_eq_left ((point_le hd).mpr h)]
  have hmin : min (r + b * d) (r + b' * d) = r + min b b' * d := by
    rcases le_total b b' with h | h
    · rw [min_eq_left h, min_eq_left ((point_le hd).mpr h)]
    · rw [min_eq_right h, min_eq_right ((point_le hd).mpr h)]
  simp only [bind, Except.bind, hiff]
  split
  · rfl
  · simp only [grid, hmax, hmin, pure, Except.pure]

/-- Two aligned tuples on their grid. -/
theorem Aligned.on_grid (h : Aligned p q) :
    ∃ r d a b a' b', 0 < d ∧ a ≤ b ∧ a' ≤ b' ∧ p.step = d ∧ p.start = r + a * d ∧
      r + b * d ≤ p.stop ∧ p.stop < r + (b + 1) * d ∧ p.fixIndices = .ok (grid r d a b) ∧
      p.ckAndFix q = .ok (grid r d a b, grid r d a' b') ∧
      p.indices = (fun k => r + k * d) '' Icc a b ∧
      q.indices = (fun k => r + k * d) '' Icc a' b' ∧ q.start = r + a' * d := by
  obtain ⟨a, b, hab, hstart, hlow, hhigh, hp, hpi⟩ :=
    fixIndices_eq (r := p.start) h.pos h.left (by simp)
  obtain ⟨a', b', hab', hqs, -, -, hq, hqi⟩ :=
    fixIndices_eq (r := p.start) (h.step ▸ h.pos) h.right (h.step ▸ h.sync)
  rw [h.step] at hq hqi hqs
  exact ⟨p.start, p.step, a, b, a', b', h.pos, hab, hab', rfl, hstart, hlow, hhigh, hp,
    ckAndFix_eq h.step.symm hp hq, hpi.trans (indices_grid h.pos), hqi.trans (indices_grid h.pos), hqs⟩

/-! ## Exactness -/

theorem point_succ (r d k : Int) : r + k * d + d = r + (k + 1) * d := by ring

theorem point_pred (r d k : Int) : r + k * d - d = r + (k - 1) * d := by ring

theorem point_eq (hd : 0 < d) : r + a * d = r + b * d ↔ a = b := (point_injective hd).eq_iff

theorem lt_of_start_lt {t u : RangeTuple} (h : t.start < u.start) : t < u :=
  Prod.Lex.toLex_lt_toLex.mpr (.inl h)

theorem join_comm (t u : RangeTuple) : t.join u = u.join t := by
  rw [join, join, min_comm, max_comm]

theorem join_of_lt (hd : 0 < d) (hab : a ≤ b) (hlt : b < a') :
    (grid r d a b).join (grid r d a' b') =
      if b + 1 = a' then [grid r d a b'] else [grid r d a b, grid r d a' b'] := by
  have hlow : grid r d a b ≤ grid r d a' b' :=
    (lt_of_start_lt ((point_lt hd).mpr (by omega))).le
  rw [join, min_eq_left hlow, max_eq_right hlow]
  simp only [grid, point_succ, point_eq hd]

/-- Joining two intervals that have no point in common. -/
theorem join_grid (hd : 0 < d) (hab : a ≤ b) (hab' : a' ≤ b') (hapart : b < a' ∨ b' < a) :
    indicesOf ((grid r d a b).join (grid r d a' b')) =
        (fun k => r + k * d) '' (Icc a b ∪ Icc a' b') ∧
      (((grid r d a b).join (grid r d a' b')).length = 1 ↔ b + 1 = a' ∨ b' + 1 = a) := by
  have hordered : ∀ {a b a' b'}, a ≤ b → a' ≤ b' → b < a' →
      indicesOf ((grid r d a b).join (grid r d a' b')) =
          (fun k => r + k * d) '' (Icc a b ∪ Icc a' b') ∧
        (((grid r d a b).join (grid r d a' b')).length = 1 ↔ b + 1 = a' ∨ b' + 1 = a) := by
    intro a b a' b' hab hab' hlt
    rw [join_of_lt hd hab hlt]
    split
    · refine ⟨?_, by simp; omega⟩
      rw [indicesOf_singleton, indices_grid hd]
      congr 1
      ext k
      simp only [mem_union, mem_Icc]
      omega
    · refine ⟨?_, by simp; omega⟩
      rw [indicesOf_pair, indices_grid hd, indices_grid hd, Set.image_union]
  rcases hapart with hlt | hlt
  · exact hordered hab hab' hlt
  · rw [join_comm, Set.union_comm, or_comm]
    exact hordered hab' hab hlt

section

variable (hd : 0 < d) (hck : t.ckAndFix q = .ok (grid r d a b, grid r d a' b'))
  (hfix : t.ckAndFix (grid r d a' b') = .ok (grid r d a b, grid r d a' b'))
  (hab : a ≤ b) (hab' : a' ≤ b')
include hd hck hfix hab hab'

theorem union_eq : t.union q = .ok (if b < a' ∨ b' < a then (grid r d a b).join (grid r d a' b')
    else [grid r d (min a a') (max b b')]) := by
  have hcontains : ∀ {a b a' b'}, (grid r d a b).contains (grid r d a' b') = true ↔
      a ≤ a' ∧ b' ≤ b := by
    intro a b a' b'
    simp [contains, grid, hd]
  rw [union, hck]
  simp only [bind, Except.bind, hcontains, intersection_eq hd hfix, pure, Except.pure]
  split
  · rename_i h
    rw [if_neg (by omega), min_eq_left h.1, max_eq_left h.2]
  · split
    · rename_i h
      rw [if_neg (by omega), min_eq_right h.1, max_eq_right h.2]
    · by_cases hapart : b < a' ∨ b' < a
      · simp only [if_pos hapart]
      · simp only [if_neg hapart, grid, point_lt hd]
        split
        · rw [min_eq_right (by omega), max_eq_left (by omega)]
        · rw [min_eq_left (by omega), max_eq_right (by omega)]

theorem difference_eq : ∃ l, t.difference q = .ok l ∧
    indicesOf l = (fun k => r + k * d) '' symmDiff (Icc a b) (Icc a' b') := by
  have himage : ∀ {S : Set Int}, (∀ k, k ∈ S ↔
      (a ≤ k ∧ k ≤ b) ∧ ¬(a' ≤ k ∧ k ≤ b') ∨ (a' ≤ k ∧ k ≤ b') ∧ ¬(a ≤ k ∧ k ≤ b)) →
      (fun k => r + k * d) '' S =
        (fun k => r + k * d) '' symmDiff (Icc a b) (Icc a' b') := by
    intro S hS
    congr 1
    ext k
    rw [Set.mem_symmDiff]
    exact hS k
  rw [difference, hck]
  simp only [bind, Except.bind, intersection_eq hd hfix, pure, Except.pure]
  by_cases hapart : b < a' ∨ b' < a
  · simp only [if_pos hapart]
    refine ⟨_, rfl, ?_⟩
    rw [(join_grid hd hab hab' hapart).1]
    exact himage fun k => by simp only [mem_union, mem_Icc]; omega
  · -- the parts below and above the intersection
    have hlow : (if (grid r d a b).start < (grid r d a' b').start then (grid r d a b).start
        else (grid r d a' b').start) = r + min a a' * d := by
      simp only [grid, point_lt hd]
      split
      · rw [min_eq_left (by omega)]
      · rw [min_eq_right (by omega)]
    have hhigh : (if (grid r d a b).stop > (grid r d a' b').stop then (grid r d a b).stop
        else (grid r d a' b').stop) = r + max b b' * d := by
      simp only [grid, gt_iff_lt, point_lt hd]
      split
      · rw [max_eq_left (by omega)]
      · rw [max_eq_right (by omega)]
    simp only [if_neg hapart, hlow, hhigh]
    simp only [grid, point_lt hd, point_pred, point_succ]
    by_cases hbelow : min a a' < max a a'
    · by_cases habove : min b b' < max b b'
      · simp only [if_pos hbelow, if_pos habove, List.cons_append, List.nil_append]
        refine ⟨_, rfl, ?_⟩
        show indicesOf ((grid r d (min a a') (max a a' - 1)).join
          (grid r d (min b b' + 1) (max b b'))) = _
        rw [(join_grid hd (by omega) (by omega) (.inl (by omega))).1]
        exact himage fun k => by simp only [mem_union, mem_Icc]; omega
      · simp only [if_pos hbelow, if_neg habove, List.append_nil]
        refine ⟨_, rfl, ?_⟩
        show indicesOf [grid r d (min a a') (max a a' - 1)] = _
        rw [indicesOf_singleton, indices_grid hd]
        exact himage fun k => by simp only [mem_Icc]; omega
    · by_cases habove : min b b' < max b b'
      · simp only [if_neg hbelow, if_pos habove, List.nil_append]
        refine ⟨_, rfl, ?_⟩
        show indicesOf [grid r d (min b b' + 1) (max b b')] = _
        rw [indicesOf_singleton, indices_grid hd]
        exact himage fun k => by simp only [mem_Icc]; omega
      · simp only [if_neg hbelow, if_neg habove, List.nil_append]
        refine ⟨_, rfl, ?_⟩
        have hnone : indicesOf [] = (fun k => r + k * d) '' ∅ := by simp [indicesOf]
        rw [hnone]
        exact himage fun k => by simp only [Set.mem_empty_iff_false, false_iff]; omega

end

/-- The operations on two tuples are those on their indices. -/
structure Exact (p q : RangeTuple) : Prop where
  intersection : ∃ o, p.intersection q = .ok o ∧ (o = none ↔ p.indices ∩ q.indices = ∅) ∧
    ∀ t ∈ o, t.indices = p.indices ∩ q.indices
  union : ∃ l, p.union q = .ok l ∧ indicesOf l = p.indices ∪ q.indices ∧
    (l.length = 1 ↔ (∃ i ∈ p.indices, i ∈ q.indices) ∨
      ∃ i ∈ p.indices, ∃ j ∈ q.indices, i + p.step = j ∨ j + p.step = i)
  difference : ∃ l, p.difference q = .ok l ∧ indicesOf l = symmDiff p.indices q.indices

theorem Aligned.exact (h : Aligned p q) : Exact p q := by
  obtain ⟨r, d, a, b, a', b', hd, hab, hab', hstep, -, -, -, hfix, hck, hp, hq, -⟩ :=
    h.on_grid
  have hf := point_injective (r := r) hd
  have hfix := ckAndFix_eq hstep hfix (fixIndices_grid (r := r) (a := a') (b := b') hd)
  have hmeet : p.indices ∩ q.indices =
      (fun k => r + k * d) '' Icc (max a a') (min b b') := by
    rw [hp, hq, ← Set.image_inter hf, Set.Icc_inter_Icc]
  constructor
  · refine ⟨_, intersection_eq hd hck, ?_, ?_⟩
    · rw [hmeet, Set.image_eq_empty, Set.Icc_eq_empty_iff]
      split
      · simp only [true_iff]
        omega
      · simp only [reduceCtorEq, false_iff]
        omega
    · intro t ht
      split at ht
      · cases ht
      · cases ht
        rw [hmeet, indices_grid hd]
  · have hall : p.indices ∪ q.indices =
        (fun k => r + k * d) '' (Icc a b ∪ Icc a' b') := by rw [hp, hq, Set.image_union]
    have htouch : ((∃ i ∈ p.indices, i ∈ q.indices) ∨
        ∃ i ∈ p.indices, ∃ j ∈ q.indices, i + p.step = j ∨ j + p.step = i) ↔
        ¬(b + 1 < a' ∨ b' + 1 < a) := by
      rw [hp, hq, hstep]
      constructor
      · rintro (⟨_, ⟨k, hk, rfl⟩, k', hk', heq⟩ | ⟨_, ⟨k, hk, rfl⟩, _, ⟨k', hk', rfl⟩, heq⟩)
        · have heq := hf heq
          simp only [mem_Icc] at hk hk'
          omega
        · simp only [point_succ, point_eq hd] at heq
          simp only [mem_Icc] at hk hk'
          omega
      · intro hnear
        by_cases hapart : b < a' ∨ b' < a
        · right
          rcases hapart with hlt | hlt
          · refine ⟨_, ⟨b, ⟨hab, le_refl b⟩, rfl⟩, _, ⟨a', ⟨le_refl a', hab'⟩, rfl⟩, .inl ?_⟩
            simp only [point_succ, point_eq hd]
            omega
          · refine ⟨_, ⟨a, ⟨le_refl a, hab⟩, rfl⟩, _, ⟨b', ⟨hab', le_refl b'⟩, rfl⟩, .inr ?_⟩
            simp only [point_succ, point_eq hd]
            omega
        · exact .inl ⟨_, ⟨max a a', ⟨by omega, by omega⟩, rfl⟩, max a a', ⟨by omega, by omega⟩, rfl⟩
    rw [hall, htouch, union_eq hd hck hfix hab hab']
    refine ⟨_, rfl, ?_⟩
    split
    · rename_i hapart
      obtain ⟨hindices, hlength⟩ := join_grid (r := r) hd hab hab' hapart
      refine ⟨hindices, hlength.trans ?_⟩
      omega
    · refine ⟨?_, by simp; omega⟩
      rw [indicesOf_singleton, indices_grid hd]
      congr 1
      ext k
      simp only [mem_union, mem_Icc]
      omega
  · obtain ⟨l, hl, hindices⟩ := difference_eq hd hck hfix hab hab'
    exact ⟨l, hl, by rw [hindices, hp, hq, Set.image_symmDiff hf]⟩

/-- What is left of the grid points from `a` to `b` without those from `a'` to `b'`. -/
def cut (r d a b a' b' : Int) : List RangeTuple :=
  if b < a' ∨ b' < a then [grid r d a b]
  else (if a ≤ a' - 1 then [grid r d a (a' - 1)] else []) ++
    if b' + 1 ≤ b then [grid r d (b' + 1) b] else []

theorem mem_cut (hab : a ≤ b) (ht : t ∈ cut r d a b a' b') :
    ∃ x y, a ≤ x ∧ x ≤ y ∧ y ≤ b ∧ t = grid r d x y := by
  unfold cut at ht
  split at ht
  · exact ⟨a, b, le_refl a, hab, le_refl b, List.mem_singleton.mp ht⟩
  · rcases List.mem_append.mp ht with ht | ht
    · split at ht
      · exact ⟨a, a' - 1, by omega, by omega, by omega, List.mem_singleton.mp ht⟩
      · cases ht
    · split at ht
      · exact ⟨b' + 1, b, by omega, by omega, by omega, List.mem_singleton.mp ht⟩
      · cases ht

theorem cut_sorted (hd : 0 < d) (hab' : a' ≤ b') :
    (cut r d a b a' b').Pairwise fun t u => t.stop < u.start := by
  unfold cut
  split
  · exact List.pairwise_singleton _ _
  · split
    · split
      · simp only [List.cons_append, List.nil_append, List.pairwise_pair, grid, point_lt hd]
        omega
      · exact List.pairwise_singleton _ _
    · split
      · exact List.pairwise_singleton _ _
      · exact .nil

theorem indicesOf_cut (hd : 0 < d) :
    indicesOf (cut r d a b a' b') = (fun k => r + k * d) '' (Icc a b \ Icc a' b') := by
  have himage : ∀ {S : Set Int}, (∀ k, k ∈ S ↔ (a ≤ k ∧ k ≤ b) ∧ ¬(a' ≤ k ∧ k ≤ b')) →
      (fun k => r + k * d) '' S = (fun k => r + k * d) '' (Icc a b \ Icc a' b') := by
    intro S hS
    congr 1
    ext k
    exact hS k
  have hpart : ∀ x y, indicesOf (if x ≤ y then [grid r d x y] else []) =
      (fun k => r + k * d) '' Icc x y := by
    intro x y
    split
    · rw [indicesOf_singleton, indices_grid hd]
    · rename_i hempty
      rw [Set.Icc_eq_empty hempty]
      simp [indicesOf]
  unfold cut
  split
  · rw [indicesOf_singleton, indices_grid hd]
    exact himage fun k => by simp only [mem_Icc]; omega
  · have happend : ∀ l l', indicesOf (l ++ l') = indicesOf l ∪ indicesOf l' := by
      intro l l'
      ext i
      simp [indicesOf, or_and_right, exists_or]
    rw [happend, hpart, hpart, ← Set.image_union]
    exact himage fun k => by simp only [mem_union, mem_Icc]; omega

/-- The call, with the comparison to the stop of the range as it was given. -/
theorem removeOverlap_def (hd : 0 < d)
    (hck : t.ckAndFix q = .ok (grid r d a b, grid r d a' b')) :
    t.removeOverlap q = .ok (
      if b < a' ∨ b' < a then [grid r d a b]
      else if a ≤ a' - 1 then
        if r + min b b' * d < t.stop then [grid r d a (a' - 1), grid r d (min b b' + 1) b]
        else [grid r d a (a' - 1)]
      else if b' + 1 ≤ b then [grid r d (b' + 1) b] else []) := by
  have hsync : (grid r d a b).testSync (grid r d a' b') = .ok () := by
    simp [testSync, ckSameStep, grid, hd.ne', bind, Except.bind, pure, Except.pure]
  have hinter : (grid r d a b).intersection (grid r d a' b') = _ :=
    intersection_eq hd (ckAndFix_grid hd)
  rw [removeOverlap, hck]
  simp only [bind, Except.bind, hinter, pure, Except.pure]
  by_cases hapart : b < a' ∨ b' < a
  · simp only [if_pos hapart]
  · simp only [if_neg hapart, hsync]
    simp only [grid, point_lt hd, point_pred, point_succ]
    by_cases hbelow : a ≤ a' - 1
    · rw [if_pos (by omega), if_pos hbelow, max_eq_right (by omega)]
      split <;> rfl
    · rw [if_neg (by omega), if_neg hbelow]
      by_cases habove : b' + 1 ≤ b
      · rw [if_pos (by omega), if_pos habove, min_eq_right (by omega)]
      · rw [if_neg (by omega), if_neg habove]

/-- The stop is reached, or nothing is left below the removed range, or the last index is not
    removed. -/
theorem removeOverlap_eq_cut (hd : 0 < d)
    (hck : t.ckAndFix q = .ok (grid r d a b, grid r d a' b')) (hlow : r + b * d ≤ t.stop)
    (h : t.stop = r + b * d ∨ a' ≤ a ∨ b < a' ∨ b' < b) :
    t.removeOverlap q = .ok (cut r d a b a' b') := by
  rw [removeOverlap_def hd hck, cut]
  congr 1
  split
  · rfl
  · by_cases hbelow : a ≤ a' - 1
    · rw [if_pos hbelow, if_pos hbelow]
      by_cases habove : b' + 1 ≤ b
      · have hlt : r + min b b' * d < t.stop :=
          lt_of_lt_of_le ((point_lt hd).mpr (by omega)) hlow
        rw [if_pos hlt, if_pos habove, min_eq_right (by omega)]
        rfl
      · have hstop : t.stop = r + b * d := by omega
        rw [if_neg (by rw [hstop, min_eq_left (by omega)]; exact lt_irrefl _), if_neg habove]
        rfl
    · rw [if_neg hbelow, if_neg hbelow]
      rfl

/-- Otherwise a reversed tuple is left above. -/
theorem removeOverlap_eq_reversed (hd : 0 < d)
    (hck : t.ckAndFix q = .ok (grid r d a b, grid r d a' b')) (hstop : r + b * d < t.stop)
    (hbelow : a < a') (hlast : a' ≤ b ∧ b ≤ b') :
    t.removeOverlap q = .ok [grid r d a (a' - 1), grid r d (b + 1) b] := by
  rw [removeOverlap_def hd hck, if_neg (by omega), if_pos (by omega), min_eq_left hlast.2,
    if_pos hstop]

theorem removeOverlap_eq (hd : 0 < d)
    (hck : (grid r d a b).ckAndFix q = .ok (grid r d a b, grid r d a' b')) :
    (grid r d a b).removeOverlap q = .ok (cut r d a b a' b') :=
  removeOverlap_eq_cut hd hck le_rfl (.inl rfl)

/-- What is left of a range, with its indices. -/
structure Removed (p q : RangeTuple) (l : List RangeTuple) : Prop where
  valid : ∀ t ∈ l, t.start ≤ t.stop
  sorted : l.Pairwise fun t u => t.stop < u.start
  indices : indicesOf l = p.indices \ q.indices

/-- `remove_overlap` returns what is left of the range. -/
def RemovesOverlap (p q : RangeTuple) : Prop := ∃ l, p.removeOverlap q = .ok l ∧ Removed p q l

/-- The last index of a range. -/
def lastIndex (p : RangeTuple) : Int := p.start + (p.stop - p.start) / p.step * p.step

end Urb.RangeTuple
