/-!
# Layers

The code of the service has three layers. Each is a module right below the crate root, named like
the layer. A layer may not reach certain others, nor certain external crates: the domain knows
neither adapter layer, the inbound adapters know neither the outbound ones nor what those are built
on, and the outbound adapters know nothing of the web.

## Main results

* `ofName?_eq_some_iff` — a layer is named by its own name only.
* `not_mem_forbiddenLayers_self` — no layer is forbidden to itself.
-/

namespace CoinLedger.Layering

/-- A layer of the service. -/
inductive Layer where
  | domain
  | inbound
  | outbound
  deriving DecidableEq, Repr

namespace Layer

/-- All layers, in the order of their rules. -/
def all : List Layer := [domain, inbound, outbound]

def name : Layer → String
  | domain => "domain"
  | inbound => "inbound"
  | outbound => "outbound"

def ofName? (name : String) : Option Layer := all.find? fun layer => layer.name = name

def forbiddenLayers : Layer → List Layer
  | domain => [inbound, outbound]
  | inbound => [outbound]
  | outbound => [inbound]

/-- The external crates that a layer may not reach. -/
def forbiddenCrates : Layer → List String
  | domain =>
    ["actix_web", "diesel", "diesel_async", "diesel_migrations", "reqwest", "utoipa",
      "utoipa_swagger_ui"]
  | inbound => ["diesel", "diesel_async", "diesel_migrations", "reqwest"]
  | outbound => ["actix_web", "utoipa", "utoipa_swagger_ui"]

theorem name_injective {a b : Layer} (h : a.name = b.name) : a = b := by
  cases a <;> cases b <;> simp_all [name]

@[simp] theorem ofName?_name (layer : Layer) : ofName? layer.name = some layer := by
  cases layer <;> decide

theorem ofName?_eq_some_iff {name : String} {layer : Layer} :
    ofName? name = some layer ↔ name = layer.name := by
  constructor
  · intro h
    have := List.find?_some (p := fun layer : Layer => decide (layer.name = name)) h
    exact (of_decide_eq_true this).symm
  · rintro rfl
    exact ofName?_name layer

theorem not_mem_forbiddenLayers_self (layer : Layer) : layer ∉ layer.forbiddenLayers := by
  cases layer <;> decide

end Layer

end CoinLedger.Layering
