import EntityQuery.Proofs.Plan.Run
import EntityQuery.Schema.Build

/-! The statements that requests compile to, and a schema to compile requests over.

What is claimed of every statement is claimed of `Compiled`: the select of a query with or without
a page, its count, the count and the test of a filter, and the three writes. -/
namespace EntityQuery.Plan

open Sql (Select)

/-- The statements that requests compile to, each with its parameters. -/
inductive Compiled (s : Schema) : Sql.Statement → List Value → Prop where
  | select {q : Query} {plan : CompiledQuery} : Plan.select s q = .ok plan →
    Compiled s (.select plan.select) plan.params
  | page {q : Query} {plan : CompiledQuery} (p : Paging) : Plan.select s q = .ok plan →
    Compiled s (.select (plan.page p).select) plan.params
  | total {q : Query} {plan : CompiledQuery} : Plan.select s q = .ok plan →
    Compiled s (.select plan.count) plan.params
  | count {entity : String} {f : Filter} {includes : List String} {select : Select}
    {params : List Value} : Plan.count s entity f includes = .ok (select, params) →
    Compiled s (.select select) params
  | existence {entity : String} {f : Filter} {select : Select} {params : List Value} :
    Plan.existence s entity f = .ok (select, params) → Compiled s (.select select) params
  | insert {e : Entity} {row : Row} {includes : List String} {w : CompiledWrite} :
    Plan.insert e row includes = .ok w → Compiled s w.statement w.params
  | update {e : Entity} {row : OrderedMap Write} {f : Filter} {members : List String}
    {w : CompiledWrite} : Plan.update s e row f members = .ok (some w) →
    Compiled s w.statement w.params
  | delete {e : Entity} {f : Filter} {w : CompiledWrite} : Plan.delete s e f = .ok w →
    Compiled s w.statement w.params

/-! ### Sales

Orders keep their rows without a customer, customers need a country and countries a region; an
invoice is an order. The theorems are tried on this schema. -/

def sales : Mapping.Document := ⟨[
  { name := "Order", table := some "orders", keys := [{name := "Id"}]
    properties := [{name := "CustomerId"}, {name := "Status"}, {name := "Note", ignored := true}]
    navigations := [{
      name := "Customer", target := "Customer", mode := .left, keys := [⟨"CustomerId", "Id"⟩]}] },
  { name := "Invoice", base := some "Order", properties := [{name := "Total"}] },
  { name := "Customer", keys := [{name := "Id"}]
    properties := [{name := "CountryId"}, {name := "Name"}]
    navigations := [{name := "Country", target := "Country", keys := [⟨"CountryId", "Id"⟩]}] },
  { name := "Country", keys := [{name := "Id"}]
    properties := [{name := "RegionId"}, {name := "Name"}]
    navigations := [{name := "Region", target := "Region", keys := [⟨"RegionId", "Id"⟩]}] },
  { name := "Region", keys := [{name := "Id"}], properties := [{name := "Name"}] }]⟩

def salesSchema : Schema :=
  match Schema.build [("sales", sales)] with
  | .ok s => s
  | .error _ => ⟨[]⟩

theorem salesSchema_builds : Schema.build [("sales", sales)] = .ok salesSchema := rfl

/-- Orders in one of two states, or of a customer on a page of those in some countries. -/
def ordersQuery : Query where
  entity := "Order"
  filter := .composite .or [
    .condition ⟨"Status", .isIn, .list [.text "open", .text "held"]⟩,
    .condition ⟨"CustomerId", .isIn, .query {
      entity := "Customer"
      filter := .condition ⟨"Country.Region.Name", .between, .list [.text "A", .text "F"]⟩
      members := ["Id"], sorting := [⟨["Name"], .ascending⟩], grouping := none
      paging := some ⟨2, 10, none⟩}⟩,
    .composite .and [
      .condition ⟨"Id", .notIn, .list []⟩,
      .condition ⟨"Customer.Name", .like, .value (.text "A%")⟩]]
  members := ["Id", "Customer.Country.Name"]
  sorting := [⟨["Status"], .descending⟩]
  grouping := none
  paging := none

/-- The customers of open orders with how many each has, those with more than one. -/
def ordersByCustomer : Query where
  entity := "Order"
  filter := .composite .and [
    .condition ⟨"Status", .equal, .value (.text "open")⟩,
    .condition ⟨"Customer.CountryId", .isIn, .query {
      entity := "Country", filter := .condition ⟨"Region.Name", .equal, .value (.text "A")⟩
      members := ["Id"], sorting := [], grouping := none, paging := some ⟨1, 5, none⟩}⟩]
  members := ["CustomerId", "count(0)", "Customer.Country.Name"]
  sorting := [⟨["Customer.Name"], .ascending⟩]
  grouping := some ⟨["CustomerId"], .condition ⟨"count(0)", .greater, .value (.int32 1)⟩⟩
  paging := none

end EntityQuery.Plan
