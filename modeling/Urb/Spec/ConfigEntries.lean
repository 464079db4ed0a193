import Urb.ForStd.AList
import Urb.ForStd.Except
import Urb.Native.ConfigureFramework

/-!
# Entries of custom resources and attributes

The custom resources and the attributes of a framework are given as entries `name:value` with
`;` between them. `configure_framework` splits all entries in one expression, which raises if one
of them does not have exactly one colon. The empty entry after a `;` at the end is such an entry.

A value that is a decimal numeral or a list of ranges is stored as what it denotes, up to the
rounding of numbers that are no doubles (`customValue_of_wellFormed`): where the test for a number
does not see that a numeral is one, as for `0.5`, the text goes to `eval`, and that never happens to
an octal numeral.

## Key results

- `entries_parsed_iff`: when both texts are parsed entry by entry
-/

namespace Urb.Config

variable {entries : List (Sigma fun _ : List Char => List Char)} {q : ℚ}

variable {β : Type} {python : Python} {text : List Char}

open PyString PyNumber

/-! ## Well-formed values -/

/-- The text is a list of ranges: it begins with a bracket, and Python reads it as a list of pairs
    of numbers. -/
def RangeList (python : Python) (text : List Char) (items : List Value) : Prop :=
  (strip text).head? = some '[' ∧ python.eval .configureFramework text = .value (.list items) ∧
    ∀ item ∈ items, ∃ first last, item = .tuple [.int first, .int last]

/-- The text is a decimal numeral or a list of ranges. -/
def WellFormed (python : Python) (text : List Char) : Prop :=
  (∃ q, Decimal text q) ∨ ∃ items, RangeList python text items

/-- The value is what the text denotes. -/
structure Denotes (python : Python) (text : List Char) (v : Value) : Prop where
  number : ∀ q, Decimal text q → v.number? = some q
  ranges : ∀ items, RangeList python text items → v = .list items

/-- If the text is a numeral, the number is a double, so that it is not rounded. -/
def Exact (python : Python) (text : List Char) : Prop :=
  ∀ q, Decimal text q → python.round (.finite q) = .finite q

theorem number?_float_eq_some_iff {x : PyFloat} :
    (Value.float x).number? = some q ↔ x = .finite q := by
  cases x with
  | finite q' => simp [Value.number?]
  | infinite negative => simp [Value.number?]
  | nan => simp [Value.number?]

theorem head?_of_decimal? (h : PyNumber.decimal? text = some q) : text.head? ≠ some '[' := by
  intro hhead
  obtain ⟨rest, rfl⟩ := List.head?_eq_some_iff.mp hhead
  simp [PyNumber.decimal?, splitSign, show Char.isDigit '[' = false from rfl] at h

theorem not_rangeList_of_decimal
    (h : Decimal text q) (items : List Value) : ¬RangeList python text items :=
  fun hrange => head?_of_decimal? h.1 hrange.1

theorem looksNumeric_of_bracket (h : (strip text).head? = some '[') :
    looksNumeric text = false := by
  obtain ⟨rest, hstrip⟩ := List.head?_eq_some_iff.mp h
  unfold looksNumeric
  simp only [hstrip]
  rw [decide_eq_false_iff_not, not_or, Bool.not_eq_true]
  refine ⟨by simp, ?_⟩
  split
  · exact isDigits_eq_false rfl rfl
  · -- the bracket is the first character, and it is not stripped from the right
    exact isDigits_eq_false rfl (head?_rdropWhile rfl (head?_rdropWhile rfl rfl))

theorem dropWhile_sign (h : isDigits (splitSign text).2) {c : Char}
    (hmem : c ∈ text) (hc : c.isDigit) :
    text.dropWhile (fun c => c = '-' ∨ c = '+') = (splitSign text).2 ∧ c ∈ (splitSign text).2 := by
  have hbody : ∀ l : List Char, isDigits l → l.dropWhile (fun c => c = '-' ∨ c = '+') = l := by
    intro l hl
    obtain ⟨hne, hall⟩ := isDigits_iff.mp hl
    cases l with
    | nil => rfl
    | cons d ds =>
      have hd := hall d (by simp)
      refine List.dropWhile_cons_of_neg ?_
      rw [decide_eq_true_eq]
      rintro (rfl | rfl) <;> exact absurd hd (by decide)
  unfold splitSign at h ⊢
  split at h
  · rename_i rest
    refine ⟨hbody rest h, ?_⟩
    obtain rfl | hmem := List.mem_cons.mp hmem
    · exact absurd hc (by decide)
    · exact hmem
  · rename_i rest
    refine ⟨hbody rest h, ?_⟩
    obtain rfl | hmem := List.mem_cons.mp hmem
    · exact absurd hc (by decide)
    · exact hmem
  · exact ⟨hbody text h, hmem⟩

theorem zeros_of_not_looksNumeric (h : Decimal text q)
    (hpoint : '.' ∉ text) (hlooks : looksNumeric text = false) :
    ∀ c ∈ text, c.isDigit → c = '0' := by
  intro c hc hdigit
  by_contra hzero
  have hpoint' : '.' ∉ strip text := fun hmem => hpoint (strip_subset text hmem)
  have hbody := isDigits_of_decimal? h.1 hpoint'
  have hc' : c ∈ strip text := mem_strip hc (not_isSpace_of_isDigit hdigit)
  have hdots : ¬['.', '.'] <:+: strip text := fun h => hpoint' (h.subset (by simp))
  -- after the sign there are digits, one of which is not stripped as a zero
  obtain ⟨hdrop, hcbody⟩ := dropWhile_sign hbody hc' hdigit
  have hzeros := isDigits_rdropWhile (p := (· = '0')) hbody hcbody (by simpa using hzero)
  obtain ⟨hne, hall⟩ := isDigits_iff.mp hzeros
  obtain ⟨d, hd⟩ := List.exists_mem_of_ne_nil _ hne
  have hpoints := isDigits_rdropWhile (p := (· = '.')) hzeros hd (by
    simpa using fun heq => absurd (hall d hd) (by rw [heq]; decide))
  have hlooks' : looksNumeric text = true := by
    unfold looksNumeric
    simp only [if_neg hdots, hdrop, decide_eq_true_eq]
    exact Or.inr hpoints
  rw [hlooks'] at hlooks
  cases hlooks

/-- A numeral is stored as the number that it denotes, rounded to a double. -/
theorem customValue_of_decimal (python : Python) (h : Decimal text q) :
    ∃ v, customValue python text = .ok (some v) ∧
      v.number? = (Value.float (python.round (.finite q))).number? := by
  cases hlooks : looksNumeric text with
  | true =>
    exact ⟨.float (python.round (.finite q)), by simp [customValue, hlooks, float?, h.1], rfl⟩
  | false =>
    -- the text goes to `eval`, which must not take it for an octal numeral
    have hplain : '.' ∈ text ∨ ∀ c ∈ text, c.isDigit → c = '0' := by
      by_cases hpoint : '.' ∈ text
      · exact Or.inl hpoint
      · exact Or.inr (zeros_of_not_looksNumeric h hpoint hlooks)
    obtain ⟨v, heval, hv⟩ := @python.eval_decimal .configureFramework _ _ h hplain
    exact ⟨v, by simp [customValue, hlooks, heval], hv⟩

/-- A well-formed value is stored, as what it denotes exactly if that is not rounded. -/
theorem customValue_of_wellFormed (h : WellFormed python text) :
    ∃ v, customValue python text = .ok (some v) ∧ (Denotes python text v ↔ Exact python text) := by
  obtain ⟨q, hq⟩ | ⟨items, hitems⟩ := h
  · have hunique : ∀ q', Decimal text q' → q' = q := fun q' hq' =>
      Option.some.inj (hq'.1.symm.trans hq.1)
    obtain ⟨v, hstored, hv⟩ := customValue_of_decimal python hq
    refine ⟨v, hstored, fun hdenotes q' hq' => ?_, fun hexact => ⟨fun q' hq' => ?_, ?_⟩⟩
    · rw [hunique q' hq']
      exact number?_float_eq_some_iff.mp (hv.symm.trans (hdenotes.number q hq))
    · rw [hunique q' hq', hv, hexact q hq]
      rfl
    · exact fun items hitems => absurd hitems (not_rangeList_of_decimal hq items)
  · refine ⟨.list items, ?_, iff_of_true ⟨fun q hq => ?_, fun items' hitems' => ?_⟩ fun q hq => ?_⟩
    · simp [customValue, looksNumeric_of_bracket hitems.1, hitems.2.1]
    · exact absurd hitems (not_rangeList_of_decimal hq items)
    · have heq := hitems.2.1.symm.trans hitems'.2.1
      simpa using heq
    · exact absurd hitems (not_rangeList_of_decimal hq items)

/-! ## Tables -/

/-- The names and values of the entries with exactly one colon. -/
def pairsOf (text : List Char) : List (List Char × List Char) :=
  Except.results splitEntry (text.splitOn ';')

/-- The value in the last entry by the name. -/
def lastValue (text name : List Char) : Option (List Char) := (pairsOf text).reverse.lookup name

theorem lookup_cons_eq_ite (pairs : List (List Char × β)) (name name' : List Char) (v : β) :
    ((name', v) :: pairs).lookup name = if name = name' then some v else pairs.lookup name := by
  rw [List.lookup_cons]
  by_cases hname : name = name'
  · simp [hname]
  · rw [beq_eq_false_iff_ne.mpr hname, if_neg hname]

theorem lookup_toTable (pairs : List (List Char × β)) (name : List Char) :
    (toTable pairs).lookup name = pairs.reverse.lookup name := by
  have hfold : ∀ table : Table β,
      (pairs.foldl (fun table pair => table.insert pair.1 pair.2) table).lookup name =
        (pairs.reverse.lookup name).or (table.lookup name) := by
    induction pairs with
    | nil => simp
    | cons pair pairs ih =>
      intro table
      obtain ⟨name', value⟩ := pair
      rw [List.foldl_cons, ih, List.reverse_cons, List.lookup_append, Option.or_assoc,
        AList.lookup_insert_eq_ite, lookup_cons_eq_ite, List.lookup_nil]
      by_cases hname : name = name'
      · simp [hname]
      · simp [hname]
  rw [toTable, hfold]
  simp

theorem exists_lastValue {name value : List Char} (h : (name, value) ∈ pairsOf text) :
    ∃ last, lastValue text name = some last := by
  have hmem : (name, value) ∈ (pairsOf text).reverse := List.mem_reverse.mpr h
  unfold lastValue
  generalize (pairsOf text).reverse = pairs at hmem
  induction pairs with
  | nil => cases hmem
  | cons pair pairs ih =>
    obtain ⟨name', value'⟩ := pair
    rw [lookup_cons_eq_ite]
    split
    · exact ⟨value', rfl⟩
    · rename_i hname
      obtain heq | hmem := List.mem_cons.mp hmem
      · exact absurd (congrArg Prod.fst heq) hname
      · exact ih hmem

/-! ## Custom values -/

theorem customValues_eq_ok {table : Table Value} (h : customValues python entries = .ok table)
    (hnodup : entries.NodupKeys) :
    (∀ e ∈ entries, customValue python e.2 = .ok (table.lookup e.1)) ∧
      ∀ name, name ∉ entries.keys → table.lookup name = none := by
  induction entries generalizing table with
  | nil =>
    cases h
    simp
  | cons e entries ih =>
    obtain ⟨name, value⟩ := e
    rw [customValues] at h
    obtain ⟨v, hv, h⟩ := Except.bind_eq_ok_iff.mp h
    obtain ⟨rest, hrest, h⟩ := Except.bind_eq_ok_iff.mp h
    obtain ⟨hnew, hnodup⟩ := List.nodupKeys_cons.mp hnodup
    obtain ⟨hmem, hnone⟩ := ih hrest hnodup
    have hlookup : ∀ name', table.lookup name' = if name' = name then v else rest.lookup name' := by
      intro name'
      cases v with
      | none =>
        cases h
        by_cases hname : name' = name
        · rw [if_pos hname, hname]
          exact hnone name hnew
        · rw [if_neg hname]
      | some v =>
        cases h
        rw [AList.lookup_insert_eq_ite]
    constructor
    · intro e he
      obtain rfl | he := List.mem_cons.mp he
      · rw [hlookup, if_pos rfl]
        exact hv
      · have hne : e.1 ≠ name := by
          intro heq
          have hkey : e.1 ∈ entries.keys := List.mem_keys_of_mem he
          rw [heq] at hkey
          exact hnew hkey
        rw [hlookup, if_neg hne]
        exact hmem e he
    · intro name' hname'
      rw [List.keys_cons, List.mem_cons, not_or] at hname'
      rw [hlookup, if_neg hname'.1]
      exact hnone name' hname'.2

theorem exists_customValues (h : ∀ e ∈ entries, ∃ v, customValue python e.2 = .ok v) :
    ∃ table, customValues python entries = .ok table := by
  induction entries with
  | nil => exact ⟨∅, rfl⟩
  | cons e entries ih =>
    obtain ⟨v, hv⟩ := h e (by simp)
    obtain ⟨table, htable⟩ := ih fun e he => h e (by simp [he])
    cases v with
    | none =>
      exact ⟨table, by simp [customValues, hv, htable, bind, Except.bind, pure, Except.pure]⟩
    | some v =>
      exact ⟨table.insert e.1 v,
        by simp [customValues, hv, htable, bind, Except.bind, pure, Except.pure]⟩

/-- The value makes `configure_framework` raise: it looks like a number and is none, or evaluating
    it exits. -/
def Raises (python : Python) (value : List Char) : Prop :=
  if looksNumeric value then float? value = none
  else python.eval .configureFramework value = .exit

theorem customValue_ok_iff {value : List Char} :
    (∃ v, customValue python value = .ok v) ↔ ¬Raises python value := by
  unfold customValue Raises
  split
  · cases float? value <;> simp
  · cases python.eval .configureFramework value <;> simp

/-! ## Texts -/

/-- `configure_framework` does not raise on the custom resources, and keeps all entries with a
    well-formed value. -/
def CustomParsed (python : Python) (text : List Char) : Prop :=
  ∃ result, parseCustomResources python (some text) = .ok result ∧
    ∀ name value, (name, value) ∈ pairsOf text → WellFormed python value →
      ∃ v, (result.getD ∅).lookup name = some v ∧ Denotes python value v

/-- `configure_framework` does not raise on the attributes, and keeps all of them as they are
    given. -/
def AttributesParsed (text : List Char) : Prop :=
  ∃ table, parseAttributes (some text) = .ok table ∧
    ∀ name value, (name, value) ∈ pairsOf text → table.lookup name = some value

/-- Each entry has exactly one colon. -/
def OneColonEach (text : List Char) : Prop :=
  ∀ entry ∈ text.splitOn ';', (entry.splitOn ':').length = 2

/-- The last entries by their names do not raise. A well-formed entry is the last by its name and
    its number is not rounded, or another one is the last and stands for the same value. -/
structure CustomEntriesOk (python : Python) (text : List Char) : Prop where
  colons : text ≠ [] → OneColonEach text
  last : ∀ name value, lastValue text name = some value → ¬Raises python value
  agree : ∀ name value last, (name, value) ∈ pairsOf text → WellFormed python value →
    lastValue text name = some last →
      if last = value then Exact python value
      else ∃ v, customValue python last = .ok (some v) ∧ Denotes python value v

/-- No name has two different values. -/
structure AttributeEntriesOk (text : List Char) : Prop where
  colons : text ≠ [] → OneColonEach text
  agree : ∀ name value last, (name, value) ∈ pairsOf text → lastValue text name = some last →
    last = value

theorem splitEntry_ok_iff {entry : List Char} :
    (∃ pair, splitEntry entry = .ok pair) ↔ (entry.splitOn ':').length = 2 := by
  unfold splitEntry
  split
  · rename_i name value h
    simp [h]
  · rename_i h
    simp only [reduceCtorEq, exists_false, false_iff]
    intro hlength
    obtain ⟨name, value, heq⟩ := List.length_eq_two.mp hlength
    exact h name value heq

theorem splitEntries_eq_ok_iff {pairs : List (List Char × List Char)} :
    splitEntries text = .ok pairs ↔ OneColonEach text ∧ pairs = pairsOf text := by
  rw [splitEntries, Except.mapM_eq_ok_iff, OneColonEach, pairsOf]
  simp only [splitEntry_ok_iff]

theorem pairsOf_nil : pairsOf [] = [] := by decide

theorem mem_entries_toTable_iff {pairs : List (List Char × β)} {name : List Char}
    {v : β} : ⟨name, v⟩ ∈ (toTable pairs).entries ↔ pairs.reverse.lookup name = some v := by
  rw [← AList.mem_lookup_iff, lookup_toTable, Option.mem_def]

theorem customParsed_iff (python : Python) (text : List Char) :
    CustomParsed python text ↔ CustomEntriesOk python text := by
  by_cases hempty : text = []
  · subst hempty
    have hlast : ∀ name, lastValue [] name = none := fun name => by
      rw [lastValue, pairsOf_nil]
      rfl
    constructor
    · intro _
      exact ⟨by simp, by simp [hlast], by simp [hlast]⟩
    · intro _
      exact ⟨none, rfl, by simp [pairsOf_nil]⟩
  · have hparse : parseCustomResources python (some text) = (splitEntries text >>= fun pairs =>
        some <$> customValues python (toTable pairs).entries) := by
      cases text with
      | nil => exact absurd rfl hempty
      | cons c cs => rfl
    rw [CustomParsed, hparse]
    constructor
    · rintro ⟨result, hresult, hkept⟩
      obtain ⟨pairs, hpairs, hresult⟩ := Except.bind_eq_ok_iff.mp hresult
      obtain ⟨hcolons, rfl⟩ := splitEntries_eq_ok_iff.mp hpairs
      obtain ⟨table, htable, rfl⟩ := Except.map_eq_ok_iff.mp hresult
      obtain ⟨hvalues, -⟩ := customValues_eq_ok htable (toTable (pairsOf text)).nodupKeys
      refine ⟨fun _ => hcolons, fun name value hlast => ?_,
        fun name value last hmem hwf hlast => ?_⟩
      · exact customValue_ok_iff.mp ⟨_, hvalues ⟨name, value⟩ (mem_entries_toTable_iff.mpr hlast)⟩
      · obtain ⟨v, hv, hdenotes⟩ := hkept name value hmem hwf
        have hstored := (hvalues ⟨name, last⟩ (mem_entries_toTable_iff.mpr hlast)).trans
          (congrArg Except.ok hv)
        split
        · rename_i heq
          obtain ⟨v', hv', hiff⟩ := customValue_of_wellFormed hwf
          rw [heq, hv', Except.ok.injEq, Option.some.injEq] at hstored
          exact hiff.mp (hstored ▸ hdenotes)
        · exact ⟨v, hstored, hdenotes⟩
    · intro hok
      have hsplit := splitEntries_eq_ok_iff.mpr ⟨hok.colons hempty, rfl⟩
      obtain ⟨table, htable⟩ : ∃ table,
          customValues python (toTable (pairsOf text)).entries = .ok table :=
        exists_customValues fun e he =>
          customValue_ok_iff.mpr (hok.last e.1 e.2 (mem_entries_toTable_iff.mp he))
      obtain ⟨hvalues, -⟩ := customValues_eq_ok htable (toTable (pairsOf text)).nodupKeys
      refine ⟨some table, ?_, fun name value hmem hwf => ?_⟩
      · exact Except.bind_eq_ok_iff.mpr ⟨_, hsplit, Except.map_eq_ok_iff.mpr ⟨table, htable, rfl⟩⟩
      · obtain ⟨last, hlast⟩ := exists_lastValue hmem
        obtain ⟨v, hv, hdenotes⟩ :
            ∃ v, customValue python last = .ok (some v) ∧ Denotes python value v := by
          have hagree := hok.agree name value last hmem hwf hlast
          split at hagree
          · rename_i heq
            obtain ⟨v, hv, hiff⟩ := customValue_of_wellFormed hwf
            exact ⟨v, heq ▸ hv, hiff.mpr hagree⟩
          · exact hagree
        have hstored := hvalues ⟨name, last⟩ (mem_entries_toTable_iff.mpr hlast)
        rw [hv] at hstored
        exact ⟨v, (Except.ok.inj hstored).symm, hdenotes⟩

theorem attributesParsed_iff (text : List Char) :
    AttributesParsed text ↔ AttributeEntriesOk text := by
  by_cases hempty : text = []
  · subst hempty
    constructor
    · intro _
      exact ⟨by simp, by simp [pairsOf_nil]⟩
    · intro _
      exact ⟨∅, rfl, by simp [pairsOf_nil]⟩
  · have hparse : parseAttributes (some text) = toTable <$> splitEntries text := by
      cases text with
      | nil => exact absurd rfl hempty
      | cons c cs => rfl
    rw [AttributesParsed, hparse]
    constructor
    · rintro ⟨table, htable, hkept⟩
      obtain ⟨pairs, hpairs, rfl⟩ := Except.map_eq_ok_iff.mp htable
      obtain ⟨hcolons, rfl⟩ := splitEntries_eq_ok_iff.mp hpairs
      refine ⟨fun _ => hcolons, fun name value last hmem hlast => ?_⟩
      have hvalue := hkept name value hmem
      rw [lookup_toTable] at hvalue
      exact Option.some.inj (hlast.symm.trans hvalue)
    · intro hok
      have hsplit := splitEntries_eq_ok_iff.mpr ⟨hok.colons hempty, rfl⟩
      refine ⟨_, Except.map_eq_ok_iff.mpr ⟨_, hsplit, rfl⟩, fun name value hmem => ?_⟩
      obtain ⟨last, hlast⟩ := exists_lastValue hmem
      rw [lookup_toTable, ← hok.agree name value last hmem hlast]
      exact hlast

end Urb.Config
