import ResponsesGateway.Python.Json

namespace ResponsesGateway

structure ColdStorageConfig where
  enabled : Bool := false
  thresholdBytes : ℕ := 1048576

structure LiteLLMConfig where
  requestTimeout : ℤ := 60
  numRetries : ℤ := 2

structure SessionConfig where
  defaultTtlDays : ℤ := 30
  defaultStore : Bool := true

structure RejectConfig where
  tools : List String :=
    ["web_search", "web_search_preview", "code_interpreter", "computer_use_preview"]
  fields : JsonDict := .ofEntries [("background", .bool true), ("truncation", .str "auto")]
  presentFields : List String := ["conversation", "context_management"]
  workaroundUrlTemplate : String :=
    "https://github.com/SimonGino/responses-gateway/issues?q=is%3Aissue+{feature}"
  mode : String := "reject"
  stripModeAllowedToolTypes : List String := ["function", "file_search", "mcp"]

structure GatewayConfig where
  cold : ColdStorageConfig := {}
  litellm : LiteLLMConfig := {}
  session : SessionConfig := {}
  reject : RejectConfig := {}

end ResponsesGateway
