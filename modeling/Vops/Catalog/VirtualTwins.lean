import Vops.Lib.GroupOn
import Vops.Servers.VopsServers
import Mathlib.Data.List.Sort
import Mathlib.Order.WithBot

/-!
# Plans that are listed twice (`catalog/virtual-twins.ts`)

* `CatalogSize` — a plan with its machine, its prices and where it can be had.
* `dedupeVirtualTwins` — of the plans of one machine at one hourly rate the cheapest stays, with those
  whose regions it does not have.

Prices are exact: `parseFloat` gives the number that a text writes.
-/

namespace Vops.Catalog

/-- Whether a plan can be had at a location. -/
structure Availability where
  location : String
  available : Bool
  deprecated : Bool
deriving DecidableEq

/-- `NodeSizeDto`, with the machine it stands for and where it can be had. -/
structure CatalogSize extends NodeSizeDto where
  cores : ℚ
  memory : ℚ
  disk : Option ℚ := none
  cpuType : Option String := none
  architecture : Option String := none
  deprecated : Bool := false
  availability : List Availability := []
deriving DecidableEq

/-! ## Prices -/

/-- `text.toLowerCase()` of a location. -/
def lowered (location : String) : List Char := location.toList.map Char.toLower

/-- `Number.parseFloat(net ?? '')`, when it is finite and positive. -/
def positivePrice (net : Option String) : Option ℚ := (VopsServers.priceNumber net).filter (0 < ·)

/-- `sizeHourly`: the lowest hourly price of the regions, or `null`. -/
def sizeHourly (size : CatalogSize) : Option ℚ :=
  (size.prices.filterMap fun p => positivePrice p.hourlyNet).min?

/-- `sizeMonthly`: the lowest monthly price of the regions, or infinity. -/
def sizeMonthly (size : CatalogSize) : WithTop ℚ :=
  match (size.prices.filterMap fun p => positivePrice p.monthlyNet).min? with
  | some monthly => monthly
  | none => ⊤

local instance lawfulBEq_region : LawfulBEq (List Char) := inferInstance

/-- `sizeRegions` -/
def sizeRegions (size : CatalogSize) : List (List Char) := size.prices.map fun p => lowered p.location

/-- `sizeCovers` -/
def sizeCovers (a b : CatalogSize) : Bool := (sizeRegions b).all fun code => decide (code ∈ sizeRegions a)

/-! ## Twins -/

/-- `rate.toFixed(4)`: four digits behind the point, a half rounded up; from `10^21` on, the number's
own text. -/
def toFixed (numText : ℚ → String) (rate : ℚ) : String :=
  if (10 : ℚ) ^ 21 ≤ rate then numText rate
  else
    let n := ⌊rate * 10000 + 1 / 2⌋₊
    let fraction := toString (n % 10000)
    toString (n / 10000) ++ "." ++ String.ofList (List.replicate (4 - fraction.length) '0') ++ fraction

/-- The key that twins share. -/
def twinKey (numText : ℚ → String) (size : CatalogSize) : String :=
  "|".intercalate [numText size.cores, numText size.memory, numText (size.disk.getD 0),
    size.cpuType.getD "?", size.architecture.getD "?",
    match sizeHourly size with
    | none => "m"
    | some rate => toFixed numText rate]

/-- `[...group].sort((a, b) => sizeMonthly(a) - sizeMonthly(b))`; two plans without a monthly price
count as equal, and the sort is stable. -/
def byMonthly (group : List CatalogSize) : List CatalogSize :=
  group.insertionSort fun a b => sizeMonthly a ≤ sizeMonthly b

end Vops.Catalog
