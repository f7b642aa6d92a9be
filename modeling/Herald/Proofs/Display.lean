import Herald.Display
import Herald.Proofs.Json.Numeral
import Mathlib.Algebra.GroupWithZero.Nat
import Mathlib.Tactic.SplitIfs

/-!
# Plain text and strings

Plain text is meant to be what `String(value)` gives. It is, but for two things: there an empty
place stands for a `null` among the items of a list, and a zero has no sign.

* `Value.asString`: a value as that rule has it;
* `Value.leaves`: the values that are met in lists inside lists, objects taken whole;
* `Exceeds`: a text that is longer by so many characters, or the same;
* `display_follows_string_rule`: values whose numbers are whole are shown by the rule, if and only
  if no list has a `null` in it and no number is a negative zero.
-/

namespace Herald

open Json

namespace Json

/-! ### The rule -/

/-- The number is spelled without fraction and exponent, and so small that every integer up to it is
a number of its own. -/
def Number.IsWhole (n : Number) : Prop :=
  ∃ m : Numeral, m.fraction = [] ∧ m.exponent = none ∧ m.amount < Nat.pow 2 53 ∧
    m.toNumber? = some n

/-- The zero that is spelled with a sign. -/
def Number.negativeZero : Number := .float true .zero

/-- A number as a string. -/
def Number.asString : Number → String
  | .integer i => toString i
  | .float negative b => if b.mantissa = 0 then "0" else (Number.float negative b).text

namespace Value

/-- Whether there is nothing. -/
def isNull : Value → Bool
  | .null => true
  | _ => false

mutual

/-- A value as a string, by the rule of `String(value)`. -/
def asString : Value → String
  | .null => "null"
  | .bool b => if b then "true" else "false"
  | .number n => n.asString
  | .string s => s
  | .array items => ",".intercalate (itemStrings items)
  | .object _ => "[object Object]"

/-- The items of a list as strings: a `null` leaves its place empty. -/
def itemStrings : List Value → List String
  | [] => []
  | v :: vs => (if v.isNull then "" else asString v) :: itemStrings vs

end

mutual

/-- The values in a value that are no lists, each with whether it is an item of a list. -/
def leaves (inside : Bool) : Value → List (Bool × Value)
  | .array items => itemLeaves items
  | .null => [(inside, .null)]
  | .bool b => [(inside, .bool b)]
  | .number n => [(inside, .number n)]
  | .string s => [(inside, .string s)]
  | .object members => [(inside, .object members)]

/-- Those of the items of a list. -/
def itemLeaves : List Value → List (Bool × Value)
  | [] => []
  | v :: vs => leaves true v ++ itemLeaves vs

end

/-- All numbers that are shown are whole. -/
def HasWholeNumbers (v : Value) : Prop := ∀ b n, (b, .number n) ∈ v.leaves false → n.IsWhole

/-- A `null` is among the items of a list. -/
def HasNullItem (v : Value) : Prop := (true, .null) ∈ v.leaves false

/-- A zero is spelled with a sign. -/
def HasNegativeZero (v : Value) : Prop := ∃ b, (b, .number .negativeZero) ∈ v.leaves false

end Value

/-! ### Whole numbers -/

/-- A numeral without fraction and exponent is read as the integer it spells, or as the zero with a
sign. -/
theorem Numeral.toNumber?_of_whole {m : Numeral} (hf : m.fraction = []) (he : m.exponent = none)
    (hm : m.amount < Nat.pow 2 53) :
    m.toNumber? = some (if m.negative then
      if m.amount = 0 then .negativeZero else .integer (-(m.amount : Int))
    else .integer m.amount) := by
  obtain ⟨negative, whole, fraction, exponent⟩ := m
  subst hf he
  have hword : append 0 whole ≤ Nat.pow 2 63 := Nat.le_trans (Nat.le_of_lt hm) (by decide)
  have hacc : accumulate 0 whole = (append 0 whole, []) :=
    accumulate_of_lt (Nat.lt_of_le_of_lt hword (by decide))
  rw [toNumber?]
  cases negative with
  | false => simp [integer?, amount, hacc]
  | true =>
    by_cases hzero : append 0 whole = 0
    · simp [integer?, amount, significand, accumulate, scale?, hacc, hzero, Number.negativeZero]
    · simp [integer?, amount, hacc, hzero, hword, Nat.pos_of_ne_zero hzero]

theorem Number.IsWhole.cases {n : Number} (hn : n.IsWhole) :
    (∃ i, n = .integer i) ∨ n = .negativeZero := by
  obtain ⟨m, hf, he, hm, hread⟩ := hn
  rw [Numeral.toNumber?_of_whole hf he hm, Option.some.injEq] at hread
  subst hread
  split_ifs
  · exact .inr rfl
  · exact .inl ⟨_, rfl⟩
  · exact .inl ⟨_, rfl⟩

end Json

/-! ### Longer texts -/

/-- A text is longer than another by so many characters, and the same text if by none. -/
structure Exceeds (s t : String) (k : Nat) : Prop where
  length : s.length = t.length + k
  eq : k = 0 → s = t

namespace Exceeds

variable {s s' t t' : String} {k k' : Nat}

theorem refl (s : String) : Exceeds s s 0 := ⟨rfl, fun _ => rfl⟩

theorem append (h : Exceeds s t k) (h' : Exceeds s' t' k') :
    Exceeds (s ++ s') (t ++ t') (k + k') where
  length := by
    rw [String.length_append, String.length_append, h.length, h'.length]
    omega
  eq hk := by rw [h.eq (by omega), h'.eq (by omega)]

theorem eq_iff (h : Exceeds s t k) : s = t ↔ k = 0 := by
  refine ⟨fun he => ?_, h.eq⟩
  have := h.length
  rw [he] at this
  omega

end Exceeds

namespace Json

/-- By how many characters a value that is no list is shown too long: a `null` that should leave its
place empty, and the zero that is shown as `-0.0`. -/
def surplus : Bool × Value → Nat
  | (true, .null) => 4
  | (_, .number n) => if n = .negativeZero then 3 else 0
  | _ => 0

theorem exceeds_number {n : Number} (hn : n.IsWhole) (b : Bool) :
    Exceeds n.text n.asString (surplus (b, .number n)) := by
  rcases hn.cases with ⟨i, rfl⟩ | rfl
  · have hzero : surplus (b, .number (.integer i)) = 0 := by simp [surplus, Number.negativeZero]
    rw [hzero]
    exact .refl _
  · have hthree : surplus (b, .number .negativeZero) = 3 := by simp [surplus]
    rw [hthree]
    exact ⟨rfl, nofun⟩

end Json

open Value

mutual

/-- What is shown for a value is longer by the surplus of its leaves. -/
theorem exceeds_display (inside : Bool) : ∀ v : Value,
    (∀ b n, (b, .number n) ∈ v.leaves inside → n.IsWhole) →
      Exceeds (display v) (if inside && v.isNull then "" else v.asString)
        ((v.leaves inside).map surplus).sum
  -- The word is right outside of lists, and four characters too long as an item.
  | .null, _ => by
    cases inside
    · exact .refl "null"
    · exact ⟨rfl, nofun⟩
  | .bool b, _ => by
    simpa [display, asString, isNull, leaves, surplus] using Exceeds.refl _
  | .number n, h => by
    have hn := exceeds_number (h inside n List.mem_cons_self) inside
    simpa [display, asString, isNull, leaves] using hn
  | .string s, _ => by
    simpa [display, asString, isNull, leaves, surplus] using Exceeds.refl s
  | .object members, _ => by
    simpa [display, asString, isNull, leaves, surplus] using Exceeds.refl _
  | .array items, h => by
    have hitems := exceeds_displayItems items h
    simpa [display, asString, isNull, leaves] using hitems

theorem exceeds_displayItems : ∀ vs : List Value,
    (∀ b n, (b, .number n) ∈ itemLeaves vs → n.IsWhole) →
      Exceeds (displayItems vs) (",".intercalate (itemStrings vs))
        ((itemLeaves vs).map surplus).sum
  | [], _ => .refl ""
  | [v], h => by
    have hv := exceeds_display true v fun b n hn => h b n (List.mem_append_left _ hn)
    simpa [displayItems, itemStrings, itemLeaves] using hv
  | v :: w :: vs, h => by
    have hv := exceeds_display true v fun b n hn => h b n (List.mem_append_left _ hn)
    have hvs := exceeds_displayItems (w :: vs) fun b n hn => h b n (List.mem_append_right _ hn)
    have htext : displayItems (v :: w :: vs) = display v ++ "," ++ displayItems (w :: vs) := rfl
    have hall := (hv.append (.refl ",")).append hvs
    rw [htext]
    simpa [itemStrings, itemLeaves] using hall

end

/-- The surplus is in the `null` items and in the zeros with a sign. -/
theorem sum_surplus_eq_zero_iff {v : Value} :
    ((v.leaves false).map surplus).sum = 0 ↔ ¬v.HasNullItem ∧ ¬v.HasNegativeZero := by
  rw [List.sum_eq_zero_iff_forall_eq_nat, List.forall_mem_map]
  constructor
  · intro h
    refine ⟨fun hitem => ?_, ?_⟩
    · have hfour := h _ hitem
      cases hfour
    · rintro ⟨b, hzero⟩
      have hthree := h _ hzero
      simp [surplus] at hthree
  · rintro ⟨hitem, hzero⟩ ⟨b, x⟩ hx
    cases x with
    | null =>
      cases b with
      | false => rfl
      | true => exact absurd hx hitem
    | number n =>
      have hne : n ≠ .negativeZero := fun he => hzero ⟨b, he ▸ hx⟩
      simp [surplus, hne]
    | bool | string | array | object => simp [surplus]

/-- **Values are shown by the rule of `String(value)`, but for `null` in lists and for negative
zeros.** A value whose numbers are whole is shown by the rule just if no list in it, at any depth of
lists in lists, has a `null` for an item, and no zero has a sign. What an object holds is not shown
and makes no difference. -/
theorem display_follows_string_rule (v : Value) (hv : v.HasWholeNumbers) :
    display v = v.asString ↔ ¬v.HasNullItem ∧ ¬v.HasNegativeZero := by
  have hexceeds := exceeds_display false v hv
  rw [Bool.false_and, if_neg Bool.false_ne_true] at hexceeds
  rw [hexceeds.eq_iff, sum_surplus_eq_zero_iff]

/-- Lists in lists, some of them empty, are joined by commas alone. -/
theorem display_nestedList :
    let v : Value := .array [.string "a", .array [], .array [.array [.number (.integer (-7))],
      .bool true], .object [("k", .null)]]
    v.HasWholeNumbers ∧ display v = v.asString ∧ v.asString = "a,,-7,true,[object Object]" := by
  intro v
  have hleaves : v.leaves false = [(true, .string "a"), (true, .number (.integer (-7))),
    (true, .bool true), (true, .object [("k", .null)])] := rfl
  have hwhole : v.HasWholeNumbers := by
    intro b n hn
    rw [hleaves] at hn
    simp only [List.mem_cons, Prod.mk.injEq, Value.number.injEq, List.not_mem_nil, or_false,
      reduceCtorEq, and_false, false_or] at hn
    obtain ⟨-, rfl⟩ := hn
    exact ⟨⟨true, [7], [], none⟩, rfl, rfl, by decide, by decide⟩
  refine ⟨hwhole, (display_follows_string_rule v hwhole).2 ⟨?_, ?_⟩, rfl⟩
  · rw [Value.HasNullItem, hleaves]
    simp
  · rintro ⟨b, hzero⟩
    rw [hleaves] at hzero
    simp [Number.negativeZero] at hzero

/-- A `null` among the items of a list does not leave its place empty. -/
theorem nullItem_is_spelled_out :
    let v : Value := .array [.number (.integer 1), .null, .number (.integer 2)]
    v.HasWholeNumbers ∧ v.asString = "1,,2" ∧ display v = "1,null,2" ∧
      display v ≠ v.asString := by
  intro v
  have hwhole : v.HasWholeNumbers := by
    intro b n hn
    simp only [v, Value.leaves, Value.itemLeaves, List.mem_append, List.mem_cons, Prod.mk.injEq,
      Value.number.injEq, List.not_mem_nil, or_false, reduceCtorEq, and_false, false_or] at hn
    rcases hn with ⟨-, rfl⟩ | ⟨-, rfl⟩
    · exact ⟨⟨false, [1], [], none⟩, rfl, rfl, by decide, by decide⟩
    · exact ⟨⟨false, [2], [], none⟩, rfl, rfl, by decide, by decide⟩
  have hrule : v.asString = "1,,2" := rfl
  have hshown : display v = "1,null,2" := rfl
  refine ⟨hwhole, hrule, hshown, ?_⟩
  rw [hrule, hshown]
  decide

end Herald
