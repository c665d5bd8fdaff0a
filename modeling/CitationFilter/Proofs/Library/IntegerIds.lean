import CitationFilter.Proofs.Decimal.Whole
import CitationFilter.Proofs.Json.Numeral
import CitationFilter.Proofs.Library.Reading
import CitationFilter.Proofs.Library.Store

/-!
# Integers as ids

An item whose id is written as an integer can be looked up under the text of this integer, as long
as the integer fits into 64 bits with a sign. A greater one is rounded to a binary number first, and
the id is the text of the shortest decimal of that number. Some great integers still keep their own
text; the others have the text of another integer, which several of them may share.
-/

namespace CitationFilter

namespace Item

open Json.Number (Kept)

/-! ## The text of an integer -/

/-- The integer that an id spells: the integer itself up to the limit, and beyond it the shortest
decimal of the binary number that is nearest to it. -/
def spelled (n : ℤ) : ℤ :=
  if n ≤ greatestExactId then n
  else ((Binary64.ofNat n.toNat).map fun x ↦ ((x.shortest .up).whole : ℤ)).getD n

theorem spelled_of_le {n : ℤ} (h : n ≤ greatestExactId) : spelled n = n := if_pos h

theorem exists_rounded {n : ℤ} (hn : Kept n) (hlimit : greatestExactId < n) :
    ∃ x, Binary64.ofNat n.toNat = some x ∧ x.negative = false ∧ 0 < (x.shortest .up).digits ∧
      2 ≤ (x.shortest .up).exponent ∧ spelled n = (x.shortest .up).whole := by
  obtain ⟨-, hhigh⟩ := hn
  have hgreatest : greatestExactId = 2 ^ 63 - 1 := rfl
  have hwords : (twoTo 64 : ℤ) = 2 ^ 64 := rfl
  have hfits : n.toNat ≤ Json.Number.greatestSignificand := by
    have hsignificand : Json.Number.greatestSignificand = 2 ^ 64 - 1 := rfl
    omega
  obtain ⟨x, hx, -, -⟩ := Json.Number.exists_ofNat hfits
  have hmagnitude := Binary64.le_magnitude_of_ofNat (by omega : 2 * 10 ^ 18 ≤ n.toNat) hx
  obtain ⟨hdigits, hexponent⟩ := Binary64.two_le_exponent_shortest hmagnitude .up
  refine ⟨x, hx, Binary64.negative_of_nearest Nat.one_pos hx, hdigits, hexponent, ?_⟩
  rw [spelled, if_neg (not_le.mpr hlimit), hx]
  rfl

theorem numberId_int {n : ℤ} (hn : Kept n) :
    numberId (.int n) = (Json.Number.int (spelled n)).text := by
  rcases le_or_gt n greatestExactId with hle | hlimit
  · rw [spelled_of_le hle, numberId, if_pos hle]
  · obtain ⟨x, hx, hsign, hdigits, hexponent, hspelled⟩ := exists_rounded hn hlimit
    have hpositional := Decimal.positional_of_nonneg hdigits (le_trans (by decide) hexponent)
    have hnonneg : ¬((x.shortest .up).whole : ℤ) < 0 := not_lt.mpr (Int.natCast_nonneg _)
    rw [numberId, if_neg (not_le.mpr hlimit), hx, hspelled, Option.map_some, Option.getD_some,
      floatId, hsign, hpositional, Json.Number.text, Json.Number.chars, Json.Number.intChars,
      if_neg hnonneg, Int.natAbs_natCast]
    rfl

/-- What is spelled beyond the limit ends in two zeros. -/
theorem hundred_dvd_spelled {n : ℤ} (hn : Kept n) (hlimit : greatestExactId < n) :
    100 ∣ spelled n := by
  obtain ⟨x, -, -, -, hexponent, hspelled⟩ := exists_rounded hn hlimit
  rw [hspelled]
  exact Int.natCast_dvd_natCast.mpr (Decimal.hundred_dvd_whole hexponent)

theorem text_int_injective : Function.Injective fun n : ℤ ↦ (Json.Number.int n).text := by
  intro m n h
  exact Json.Number.intChars_injective (String.ofList_injective h)

/-! ## Items with integers as ids -/

/-- The element of a library in some place is an object with an integer as its id. -/
def NumberedAt (text : String) (i : ℕ) (n : ℤ) : Prop :=
  ∃ values fields, Json.readAll? text = some (.arr values) ∧ values[i]? = some (.obj fields) ∧
    (idKey, .num (.int n)) ∈ fields

theorem exists_item_of_numberedAt {text : String} {items : List Item}
    (h : listOfJsonText text = .ok items) {i : ℕ} {n : ℤ} (hn : NumberedAt text i n) :
    Kept n ∧ ∃ item, items[i]? = some item ∧ item.id = (Json.Number.int (spelled n)).text := by
  obtain ⟨values, hvalues, hitems⟩ := listOfJsonText_eq_ok_iff.mp h
  obtain ⟨values', fields, hvalues', hobject, hid⟩ := hn
  obtain ⟨⟩ := hvalues.symm.trans hvalues'
  obtain ⟨hi, hget⟩ := List.getElem?_eq_some_iff.mp hobject
  have hi' : i < items.length := hitems.length_eq ▸ hi
  have hread : (items[i]).IsReadFrom fields := by
    have hok := hitems.get hi hi'
    rw [List.get_eq_getElem, hget] at hok
    exact ofJson_obj_eq_ok_iff.mp hok
  obtain ⟨value, honly, htext⟩ := hread.id
  have hmem : (idKey, .num (.int n)) ∈ fields.filter (·.1 = idKey) :=
    List.mem_filter.mpr ⟨hid, decide_eq_true rfl⟩
  rw [honly, List.mem_singleton] at hmem
  obtain ⟨-, rfl⟩ := Prod.mk.inj hmem
  have hkept : Kept n := by
    -- the number has been read, like all numbers that are the last value of their key
    have hfits := fits_last hvalues (List.mem_of_getElem? hobject) (lookup_id honly)
    obtain ⟨⟩ | ⟨⟩ | hinteger := hfits
    exact hinteger.kept
  refine ⟨hkept, items[i], List.getElem?_eq_getElem hi', ?_⟩
  rw [← numberId_int hkept]
  exact (Option.some.inj htext).symm

/-- **Integers as ids.** The id of an item with the integer `n` in its place is the text of `n` if
and only if `n` is the integer that is spelled, as are all of 64 bits with a sign; what is spelled
for a greater one ends in two zeros. Two such items have the same id if and only if the same integer
is spelled for both, so of the integers that are spelled no two are confused. And if no earlier item
has the text of `n` for its id, the item is what is found under this text just in case `n` is
spelled. -/
theorem integer_id_exact_iff {text : String} {items : List Item}
    (h : listOfJsonText text = .ok items) {i : ℕ} {n : ℤ} (hn : NumberedAt text i n) :
    ∃ item, items[i]? = some item ∧ item.id = (Json.Number.int (spelled n)).text ∧
      (item.id = (Json.Number.int n).text ↔ spelled n = n) ∧
      (n ≤ greatestExactId → spelled n = n) ∧ (greatestExactId < n → 100 ∣ spelled n) ∧
      (∀ j m other, NumberedAt text j m → items[j]? = some other →
        (other.id = item.id ↔ spelled m = spelled n)) ∧
      ∀ store : Store, store.items = items →
        (∀ earlier ∈ items.take i, earlier.id ≠ (Json.Number.int n).text) →
        (store.retrieve (Json.Number.int n).text = .ok item ↔ spelled n = n) := by
  obtain ⟨hkept, item, hitem, hid⟩ := exists_item_of_numberedAt h hn
  have hexact : item.id = (Json.Number.int n).text ↔ spelled n = n := by
    rw [hid]
    exact text_int_injective.eq_iff
  refine ⟨item, hitem, hid, hexact, spelled_of_le, hundred_dvd_spelled hkept, ?_, ?_⟩
  · intro j m other hm hother
    obtain ⟨-, other', hother', hid'⟩ := exists_item_of_numberedAt h hm
    obtain rfl := Option.some.inj (hother.symm.trans hother')
    rw [hid, hid']
    exact text_int_injective.eq_iff
  · rintro store rfl hfirst
    rw [← hexact]
    constructor
    · exact Store.id_of_retrieve
    · intro hown
      exact Store.retrieve_of_first hitem hown hfirst

theorem exists_items_of_ids {text : String} {ids : List String}
    (h : (listOfJsonText text).toOption.map (·.map Item.id) = some ids) :
    ∃ items, listOfJsonText text = .ok items ∧ items.map Item.id = ids := by
  obtain ⟨items, hitems, hids⟩ := Option.map_eq_some_iff.mp h
  exact ⟨items, Except.toOption_eq_some_iff.mp hitems, hids⟩

/-- A small integer, and ten to the nineteenth. -/
def smallAndRound : String := "[\x7b\"id\":12\x7d,\x7b\"id\":10000000000000000000\x7d]"

/-- Ten to the nineteenth is beyond the limit, but it is spelled. -/
theorem integer_id_exact_of_round :
    NumberedAt smallAndRound 1 10000000000000000000 ∧
    ∃ first second, listOfJsonText smallAndRound = .ok [first, second] ∧
      second.id = "10000000000000000000" ∧
      Store.retrieve ⟨[first, second], []⟩ "10000000000000000000" = .ok second := by
  have hids : (listOfJsonText smallAndRound).toOption.map (·.map Item.id)
      = some ["12", "10000000000000000000"] := by
    decide +kernel
  have hspelled : spelled 10000000000000000000 = 10000000000000000000 := by decide +kernel
  have hvalues : Json.readAll? smallAndRound = some (.arr
      [.obj [(idKey, .num (.int 12))], .obj [(idKey, .num (.int 10000000000000000000))]]) := rfl
  have hnumbered : NumberedAt smallAndRound 1 10000000000000000000 :=
    ⟨_, _, hvalues, rfl, List.mem_singleton_self _⟩
  obtain ⟨items, hitems, hids⟩ := exists_items_of_ids hids
  obtain ⟨first, rest, rfl, hfirst, hrest⟩ := List.map_eq_cons_iff.mp hids
  obtain ⟨second, rest, rfl, hsecond, hrest⟩ := List.map_eq_cons_iff.mp hrest
  obtain rfl := List.map_eq_nil_iff.mp hrest
  obtain ⟨item, hitem, -, -, -, -, -, hfound⟩ := integer_id_exact_iff hitems hnumbered
  obtain rfl := Option.some.inj hitem
  refine ⟨hnumbered, first, second, hitems, hsecond,
    (hfound ⟨[first, second], []⟩ rfl ?_).mpr hspelled⟩
  intro earlier hearlier
  obtain rfl := List.mem_singleton.mp hearlier
  rw [hfirst]
  decide +kernel

/-- The two greatest integers of 64 bits. -/
def greatestTwo : String :=
  "[\x7b\"id\":18446744073709551615\x7d,\x7b\"id\":18446744073709551614\x7d]"

/-- Both are rounded up to the same number, and neither of them is found under its own text. -/
theorem greatest_integers_confused :
    NumberedAt greatestTwo 0 18446744073709551615 ∧
    NumberedAt greatestTwo 1 18446744073709551614 ∧
    ∃ items, listOfJsonText greatestTwo = .ok items ∧
      items.map Item.id = ["18446744073709552000", "18446744073709552000"] ∧
      ∀ id ∈ ["18446744073709551615", "18446744073709551614"],
        Store.retrieve ⟨items, []⟩ id = .error (.itemNotFound id) := by
  have hvalues : Json.readAll? greatestTwo = some (.arr
      [.obj [(idKey, .num (.int 18446744073709551615))],
        .obj [(idKey, .num (.int 18446744073709551614))]]) := rfl
  have hids : (listOfJsonText greatestTwo).toOption.map (·.map Item.id)
      = some ["18446744073709552000", "18446744073709552000"] := by
    decide +kernel
  obtain ⟨items, hitems, hids⟩ := exists_items_of_ids hids
  refine ⟨⟨_, _, hvalues, rfl, List.mem_singleton_self _⟩,
    ⟨_, _, hvalues, rfl, List.mem_singleton_self _⟩, items, hitems, hids, fun id hid ↦ ?_⟩
  refine Store.retrieve_of_not_mem fun hmem ↦ ?_
  have hother : ∀ id ∈ ["18446744073709551615", "18446744073709551614"],
      id ∉ ["18446744073709552000", "18446744073709552000"] := by
    decide +kernel
  rw [Store.ids, mem_distinct, hids] at hmem
  exact hother id hid hmem

end Item

end CitationFilter
