import CoinLedger.Json.Pointer
/-!
# The machine-readable description of the interface

The description follows OpenAPI 3.1: the operations by path and method with their parameters and
responses, the shapes of the bodies, and the header by which the gateway forwards the caller.
-/

namespace CoinLedger.Http.Description

open Json (Value)

/-! ## Shapes -/

/-- A reference to a shape. -/
def shapeRef (name : String) : Value := .obj [("$ref", .str ("#/components/schemas/" ++ name))]

/-- A list of things of one shape. -/
def listOf (item : Value) : Value := .obj [("type", .str "array"), ("items", item)]

/-- An amount: a whole number that is not negative. -/
def amount (more : List (String × Value)) : Value :=
  .obj ([("type", .str "integer"), ("format", .str "int64")] ++ more ++ [("minimum", .nat 0)])

def text (more : List (String × Value)) : Value := .obj (("type", .str "string") :: more)

/-- An object all of whose members are required. -/
def record (description : Option String) (members : List (String × Value)) : Value :=
  .obj ([("type", .str "object")] ++
    (description.toList.map fun d => ("description", .str d)) ++
    [("required", .array (members.map fun m => .str m.1)), ("properties", .obj members)])

/-- The shapes of all bodies. -/
def shapes : List (String × Value) :=
  [("CoinHistoryDto", record none
      [("received", listOf (shapeRef "ReceivedCoinsDto")),
        ("sent", listOf (shapeRef "SentCoinsDto"))]),
    ("ErrorBody", record (some "Error body returned by every failing endpoint.")
      [("errors", text [("description", .str "Human-readable description of the failure."),
        ("example", .str "user `bob` not found")])]),
    ("InfoResponse", record (some "Account view returned by `GET /api/info`.")
      [("balance", amount []), ("inventory", listOf (shapeRef "InventoryItemDto")),
        ("coinHistory", shapeRef "CoinHistoryDto")]),
    ("InventoryItemDto", record (some "One inventory line.")
      [("type", text [("example", .str "cup")]), ("quantity", amount [])]),
    ("ReceivedCoinsDto", record none [("fromUser", text []), ("amount", amount [])]),
    ("SendCoinRequest", record (some "Request payload for `POST /api/sendCoin`.")
      [("toUser", text [("example", .str "bob")]), ("amount", amount [("example", .nat 150)])]),
    ("SentCoinsDto", record none [("toUser", text []), ("amount", amount [])])]

/-! ## Operations -/

def jsonBody (shape : String) : String × Value :=
  ("content", .obj [("application/json", .obj [("schema", shapeRef shape)])])

/-- A response: its status, what it means, and the shape of its body if it has one. -/
def response (status description : String) (shape : Option String) : String × Value :=
  (status, .obj (("description", .str description) :: shape.toList.map jsonBody))

/-- A response to a failed request. -/
def failure (status description : String) : String × Value :=
  response status description (some "ErrorBody")

/-- The failures that every store route may answer with. -/
def commonFailures : List (String × Value) :=
  [failure "401" "Missing caller identity", failure "500" "Internal server error",
    failure "504" "Deadline exceeded"]

/-- A required parameter. -/
def parameter (name place description : String) (schema : Value) : Value :=
  .obj [("name", .str name), ("in", .str place), ("description", .str description),
    ("required", .bool true), ("schema", schema)]

/-- The header with the caller's id. -/
def callerParameter : Value :=
  parameter "X-User-Id" "header" "Caller id forwarded by the gateway"
    (.obj [("type", .str "integer"), ("format", .str "int64")])

/-- The segment with the name of a good. -/
def itemParameter : Value := parameter "item" "path" "Catalog item name" (text [])

/-- An operation of a path. -/
def operation (tag summary id : String) (parameters : List Value) (body : Option String)
    (responses : List (String × Value)) : Value :=
  .obj ([("tags", .array [.str tag]), ("summary", .str summary), ("operationId", .str id)] ++
    (if parameters.isEmpty then [] else [("parameters", .array parameters)]) ++
    (body.toList.map fun shape =>
      ("requestBody", .obj [jsonBody shape, ("required", .bool true)])) ++
    [("responses", .obj responses)])

/-- All paths with their one operation each. -/
def paths : List (String × Value) :=
  [("/api/info", .obj [("get", operation "store"
      "Balance, inventory and coin history of the caller." "getInfo" [callerParameter] none
      (response "200" "Account view" (some "InfoResponse") :: commonFailures))]),
    ("/api/sendCoin", .obj [("post", operation "store"
      "Transfer coins to another user." "sendCoin" [callerParameter] (some "SendCoinRequest")
      (response "200" "Transfer committed" none ::
        failure "400" "Invalid transfer or insufficient funds" :: commonFailures))]),
    ("/api/buy/\x7bitem\x7d", .obj [("get", operation "store"
      "Buy one unit of a catalog item." "buyItem" [itemParameter, callerParameter] none
      (response "200" "Purchase committed" none ::
        failure "400" "Unknown item or insufficient funds" :: commonFailures))]),
    ("/health/ready", .obj [("get", operation "health" "Readiness probe." "ready" [] none
      [response "200" "Ready to serve ledger traffic" none,
        response "503" "Still starting" none])]),
    ("/health/live", .obj [("get", operation "health" "Liveness probe." "live" [] none
      [response "200" "Process is alive" none,
        response "503" "Draining for shutdown" none])])]

/-! ## The document -/

/-- A group of operations. -/
def tag (name description : String) : Value :=
  .obj [("name", .str name), ("description", .str description)]

/-- The header by which the gateway vouches for the caller. -/
def callerScheme : Value :=
  .obj [("type", .str "apiKey"), ("in", .str "header"), ("name", .str "X-User-Id"),
    ("description", .str "Authenticated user id forwarded by the gateway.")]

/-- The whole description. -/
def document : Value :=
  .obj [
    ("openapi", .str "3.1.0"),
    ("info", .obj [("title", .str "Merch store API"),
      ("description", .str "Coin balances, purchases and transfers between employees."),
      ("license", .obj [("name", .str "")]), ("version", .str "0.1.0")]),
    ("servers", .array [.obj [("url", .str "/"),
      ("description", .str "Relative to the deployment base URL")]]),
    ("paths", .obj paths),
    ("components", .obj [("schemas", .obj shapes),
      ("securitySchemes", .obj [("CallerId", callerScheme)])]),
    ("security", .array [.obj [("CallerId", .array [])]]),
    ("tags", .array [tag "store" "Balance, purchase and transfer operations",
      tag "health" "Endpoints for health checks"])]

end CoinLedger.Http.Description
