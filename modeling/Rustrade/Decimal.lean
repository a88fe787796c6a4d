import Mathlib.Algebra.Order.Field.Rat
import Mathlib.Tactic.Common

/-!
# Numbers and instants

`rust_decimal::Decimal` is read as the rational it denotes. What its operators cannot show is
the width of the type: an operation whose result does not fit fails. `DecimalRange` is that
width, left open; the checked operations answer `none` outside it, as the source's `checked_*`
calls do, and `DecimalRange.exact` is the reading in which everything fits.
-/

set_option autoImplicit false

namespace Rustrade

abbrev Decimal := ℚ

/-- `chrono::DateTime<Utc>`, as an offset from a fixed instant. -/
abbrev DateTime := ℤ

/-- The values a `Decimal` can hold. -/
class DecimalRange where
  fits : Decimal → Bool

namespace Decimal

variable [DecimalRange]

/-- The result of an operation, if the type can hold it. -/
def ofExact (x : Decimal) : Option Decimal := if DecimalRange.fits x then some x else none

def checkedAdd (x y : Decimal) : Option Decimal := ofExact (x + y)

def checkedSub (x y : Decimal) : Option Decimal := ofExact (x - y)

def checkedMul (x y : Decimal) : Option Decimal := ofExact (x * y)

/-- Division by zero fails whatever the range. -/
def checkedDiv (x y : Decimal) : Option Decimal := if y = 0 then none else ofExact (x / y)

end Decimal

/-- Exact arithmetic: every rational fits. -/
abbrev DecimalRange.exact : DecimalRange := ⟨fun _ => true⟩

namespace Decimal

theorem ofExact_eq_some [DecimalRange] {x y : Decimal} (h : ofExact x = some y) : x = y := by
  unfold ofExact at h
  split at h
  · exact Option.some.inj h
  · exact absurd h (by simp)

@[simp] theorem ofExact_exact {x : Decimal} : @ofExact DecimalRange.exact x = some x := rfl

@[simp] theorem checkedAdd_exact {x y : Decimal} :
    @checkedAdd DecimalRange.exact x y = some (x + y) := rfl

@[simp] theorem checkedSub_exact {x y : Decimal} :
    @checkedSub DecimalRange.exact x y = some (x - y) := rfl

@[simp] theorem checkedMul_exact {x y : Decimal} :
    @checkedMul DecimalRange.exact x y = some (x * y) := rfl

theorem checkedDiv_exact {x y : Decimal} (h : y ≠ 0) :
    @checkedDiv DecimalRange.exact x y = some (x / y) := by
  simp [checkedDiv, h]

end Decimal

end Rustrade
