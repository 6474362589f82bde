import PushRelay.Json.Basic

/-! The description of the relay's HTTP interface that it serves itself. -/
namespace PushRelay.Description

def version : String := "0.1.0"

structure Operation where
  path : String
  method : String
  tag : String
  summary : String
  statuses : List (String × String)

def operations : List Operation :=
  [⟨"/push", "post", "push", "Accept a notification batch",
      [("200", "Batch accepted"), ("400", "Batch rejected")]⟩,
    ⟨"/config/pushers", "put", "config", "Set the ceiling for detached dispatches",
      [("200", "Ceiling updated"), ("400", "Missing or invalid value")]⟩,
    ⟨"/stat/app", "get", "monitoring", "Delivery statistics", [("200", "Delivery statistics")]⟩,
    ⟨"/config/app", "get", "config", "Active configuration with secrets replaced by `...`",
      [("200", "Redacted configuration")]⟩,
    ⟨"/health", "get", "monitoring", "Whether the process serves requests",
      [("200", "Process is serving")]⟩,
    ⟨"/metrics", "get", "monitoring", "Prometheus metrics",
      [("200", "Prometheus metrics"), ("503", "No metrics recorder installed")]⟩]

def schemas : List String :=
  ["AndroidConfig", "ApiMessage", "AppConfig", "CoreConfig", "ExtendEntry", "FcmV1Config",
    "HealthResponse", "IosConfig", "LogConfig", "NotificationContent", "NotificationRequest",
    "PlatformStat", "PushBatch", "StatsSnapshot"]

def Operation.toJson (o : Operation) : Json :=
  .obj [(o.method, .obj [("tags", .arr [.str o.tag]), ("summary", .str o.summary),
    ("responses", .obj (o.statuses.map fun s => (s.1, .obj [("description", .str s.2)])))])]

def document : Json :=
  .obj [("openapi", .str "3.1.0"),
    ("info", .obj [("title", .str "Push Relay API"),
      ("description",
        .str "Accepts push notification batches and relays them to APNs, GCM and FCM"),
      ("version", .str version)]),
    ("paths", .obj (operations.map fun o => (o.path, o.toJson))),
    ("components", .obj [("schemas",
      .obj (schemas.map fun s => (s, .obj [("type", .str "object")])))])]

end PushRelay.Description
