import AdhocReport.Schema.Registry
set_option autoImplicit false

/-!
# The warehouse: tables offered to reports

Products, orders, their lines and their refunds.
-/

namespace AdhocReport.Warehouse

open AdhocReport.Schema

/-- The primary key column. -/
def idColumn : Column := ⟨"id", "id", "INTEGER", .integer, [], true, false⟩

/-- A column that points to the id of another table. -/
def keyColumn (name target : String) : Column :=
  ⟨name, name, "INTEGER", .integer, [⟨target, "id"⟩], false, false⟩

/-- A plain column. -/
def plainColumn (name rawType : String) (type : ColumnType) (nullable : Bool) : Column :=
  ⟨name, name, rawType, type, [], false, nullable⟩

/-- Products with their list price. -/
def products : Table :=
  ⟨"products", none,
   [idColumn,
    plainColumn "name" "VARCHAR(120)" .text false,
    plainColumn "category" "VARCHAR(60)" .text true,
    plainColumn "price" "NUMERIC(10, 2)" (.numeric 2) false,
    plainColumn "in_stock" "BOOLEAN" .boolean false]⟩

/-- Orders of customers. -/
def orders : Table :=
  ⟨"orders", none,
   [idColumn,
    plainColumn "customer_name" "VARCHAR(120)" .text true,
    plainColumn "status" "VARCHAR(30)" .text false,
    plainColumn "total" "NUMERIC(12, 2)" (.numeric 2) false,
    plainColumn "discount_rate" "NUMERIC(5, 4)" (.numeric 4) true,
    plainColumn "is_paid" "BOOLEAN" .boolean false,
    plainColumn "created_at" "DATETIME" .datetime false]⟩

/-- Lines of orders. -/
def orderItems : Table :=
  ⟨"order_items", none,
   [idColumn,
    keyColumn "order_id" "orders",
    keyColumn "product_id" "products",
    plainColumn "quantity" "INTEGER" .integer false,
    plainColumn "unit_price" "NUMERIC(10, 2)" (.numeric 2) false]⟩

/-- Refunds of orders. -/
def refunds : Table :=
  ⟨"refunds", none,
   [idColumn,
    keyColumn "order_id" "orders",
    plainColumn "amount" "NUMERIC(12, 2)" (.numeric 2) false,
    plainColumn "reason" "VARCHAR(255)" .text true,
    plainColumn "refunded_on" "DATE" .date true]⟩

/-- The tables of the warehouse. -/
def tables : List Table := [products, orders, orderItems, refunds]

/-- What the tables hold, in words. -/
def descriptions : List (String × String) :=
  [("products", "Sellable products and their list price."), ("orders", "Customer orders."),
   ("order_items", "Order lines."), ("refunds", "Refunds issued against orders.")]

/-- The registry of the warehouse. -/
def registry : Registry := .ofTables tables descriptions

end AdhocReport.Warehouse
