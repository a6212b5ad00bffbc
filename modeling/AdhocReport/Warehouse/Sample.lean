import AdhocReport.Sql.Selection
set_option autoImplicit false

/-!
# The warehouse: sample content

A few products, orders, lines and refunds, among them values that are missing, an order without
lines and a line without quantity.  Whole amounts are stored as integers, as numeric columns do.
-/

namespace AdhocReport.Warehouse

open AdhocReport.Sql

/-- The record with the given values. -/
def recordOf (names : List String) (values : List Value) : Record :=
  fun name => ((names.zip values).lookup name).getD .null

/-- The sample products. -/
def sampleProducts : List Record :=
  let record := recordOf ["id", "name", "category", "price", "in_stock"]
  [record [.int 1, .text "Kayak tour", .text "tours", .int 80, .int 1],
   record [.int 2, .text "Pub crawl", .text "nightlife", .int 25, .int 1],
   record [.int 3, .text "Zip_line 50%", .null, .real 42.5, .int 0]]

/-- The sample orders. -/
def sampleOrders : List Record :=
  let record := recordOf ["id", "customer_name", "status", "total", "discount_rate", "is_paid", "created_at"]
  [record [.int 1, .text "Ada", .text "paid", .int 160, .real 0.1, .int 1, .text "2024-01-15 10:30:00.000000"],
   record [.int 2, .text "Grace", .text "paid", .int 50, .null, .int 1, .text "2024-01-20 18:00:00.000000"],
   record [.int 3, .text "Linus", .text "open", .int 25, .null, .int 0, .text "2024-02-03 09:15:00.000000"],
   record [.int 4, .null, .text "void", .int 0, .real 0.25, .int 0, .text "2023-12-31 23:59:59.000000"],
   record [.int 5, .text "O'Hara", .text "open", .real 99.5, .real 0.05, .int 0,
     .text "2024-04-01 00:00:00.000000"]]

/-- The sample lines. -/
def sampleOrderItems : List Record :=
  let record := recordOf ["id", "order_id", "product_id", "quantity", "unit_price"]
  [record [.int 1, .int 1, .int 1, .int 2, .int 80],
   record [.int 2, .int 2, .int 2, .int 2, .int 25],
   record [.int 3, .int 3, .int 2, .int 1, .int 25],
   record [.int 4, .int 1, .int 2, .int 0, .int 25],
   record [.int 5, .int 5, .int 3, .int 3, .real 33.25]]

/-- The sample refunds. -/
def sampleRefunds : List Record :=
  let record := recordOf ["id", "order_id", "amount", "reason", "refunded_on"]
  [record [.int 1, .int 1, .int 40, .text "weather", .text "2024-01-16"],
   record [.int 2, .int 2, .int 10, .text "late start", .text "2024-01-21"],
   record [.int 3, .int 1, .real 5.25, .null, .null]]

/-- The sample content by table name. -/
def sample : Content := fun table =>
  if table == "products" then sampleProducts
  else if table == "orders" then sampleOrders
  else if table == "order_items" then sampleOrderItems
  else if table == "refunds" then sampleRefunds
  else []

/-- Tables without rows. -/
def emptyContent : Content := fun _ => []

end AdhocReport.Warehouse
