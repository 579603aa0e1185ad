import MetricQuery.Catalog

/-!
# The sample catalog

The catalog that is used where no other one is given: the sales of a small
company, its inventory and its customers.
-/

namespace MetricQuery.Catalog.Sample

/-- A whole number as a cell. -/
def whole (n : Nat) : Cell := .number (Decimal.ofNat n)

/-- A number of hundredths as a cell. -/
def hundredths (n : Nat) : Cell := .number (Decimal.ofDecimal false n (-2))

/-- A text as a cell. -/
def word (text : String) : Cell := .text text

/-- The category that a product belongs to. -/
def categoryOf (product : String) : String :=
  if product = "Product A" then "Hardware"
  else if product = "Product B" then "Software"
  else "Services"

/-- A row of the sales table. -/
def sale (id : Nat) (month product region : String) (revenue profit quantity discount : Nat) : Row :=
  .ofList [
    ("id", whole id), ("month", word month), ("product", word product), ("region", word region),
    ("category", word (categoryOf product)), ("revenue", whole revenue), ("profit", whole profit),
    ("quantity", whole quantity), ("discount", hundredths discount)]

/-- The sales table; discounts are in hundredths. -/
def sales : Table where
  name := "sales"
  label := "Sales"
  metrics := [
    ⟨"revenue", "Revenue", .currency⟩, ⟨"profit", "Profit", .currency⟩,
    ⟨"quantity", "Quantity", .number⟩, ⟨"discount", "Discount", .percentage⟩]
  dimensions := [
    ⟨"product", "Product", none⟩, ⟨"region", "Region", none⟩, ⟨"month", "Month", none⟩,
    ⟨"category", "Category", none⟩]
  rows := [
    sale 1 "Apr" "Product B" "East" 8783 189 47 5,
    sale 2 "Jun" "Product C" "South" 367 3074 2 10,
    sale 3 "Sep" "Product B" "South" 7485 496 18 0,
    sale 4 "Apr" "Product A" "North" 8675 4825 58 15,
    sale 5 "Sep" "Product C" "North" 3342 3550 91 5,
    sale 6 "Jun" "Product A" "West" 7607 2198 45 0,
    sale 7 "Jun" "Product B" "North" 8457 550 94 20,
    sale 8 "Dec" "Product C" "North" 9962 4594 63 10,
    sale 9 "Dec" "Product A" "East" 5120 1310 36 5,
    sale 10 "Mar" "Product B" "West" 2290 720 12 0,
    sale 11 "Mar" "Product A" "South" 6431 2875 51 10,
    sale 12 "Sep" "Product C" "East" 4718 1602 29 15]

/-- A row of the inventory table. -/
def stockItem (id : Nat) (product warehouse category : String) (stock level cost : Nat) : Row :=
  .ofList [
    ("id", whole id), ("product", word product), ("warehouse", word warehouse),
    ("category", word category), ("stock", whole stock), ("reorder_level", whole level),
    ("unit_cost", hundredths cost)]

/-- The inventory table; costs are in hundredths. -/
def inventory : Table where
  name := "inventory"
  label := "Inventory"
  metrics := [
    ⟨"stock", "Stock", .number⟩, ⟨"reorder_level", "Reorder Level", .number⟩,
    ⟨"unit_cost", "Unit Cost", .currency⟩]
  dimensions := [
    ⟨"product", "Product", none⟩, ⟨"warehouse", "Warehouse", none⟩,
    ⟨"category", "Category", none⟩]
  rows := [
    stockItem 1 "Product A" "Warehouse 1" "Hardware" 120 15 2450,
    stockItem 2 "Product B" "Warehouse 1" "Software" 340 40 1200,
    stockItem 3 "Product C" "Warehouse 2" "Services" 75 10 4825,
    stockItem 4 "Product A" "Warehouse 2" "Hardware" 18 15 2450,
    stockItem 5 "Product B" "Warehouse 3" "Software" 260 40 1200,
    stockItem 6 "Product C" "Warehouse 3" "Services" 5 10 4825]

/-- A row of the customers table. -/
def customer (id : Nat) (name region segment : String) (orders value satisfaction : Nat) : Row :=
  .ofList [
    ("id", whole id), ("name", word name), ("region", word region), ("segment", word segment),
    ("orders", whole orders), ("lifetime_value", whole value),
    ("satisfaction", hundredths satisfaction)]

/-- The customers table; satisfaction is in hundredths. -/
def customers : Table where
  name := "customers"
  label := "Customers"
  metrics := [
    ⟨"orders", "Orders", .number⟩, ⟨"lifetime_value", "Lifetime Value", .currency⟩,
    ⟨"satisfaction", "Satisfaction", .percentage⟩]
  dimensions := [
    ⟨"region", "Region", none⟩, ⟨"segment", "Segment", none⟩, ⟨"name", "Customer", none⟩]
  rows := [
    customer 1 "Acme Corp" "East" "Enterprise" 12 48200 92,
    customer 2 "Globex" "West" "Enterprise" 8 31750 85,
    customer 3 "Initech" "North" "SMB" 21 9400 78,
    customer 4 "Umbrella" "South" "SMB" 5 3100 64,
    customer 5 "Hooli" "West" "Startup" 17 12650 88,
    customer 6 "Stark Industries" "East" "Enterprise" 30 96300 97]

end Sample

/-- The catalog that is used where no other one is given. -/
def sample : Catalog where
  tables := [Sample.sales, Sample.inventory, Sample.customers]
  functions := usualFunctions
  aliases := .legacy
  settings := {}

end MetricQuery.Catalog
