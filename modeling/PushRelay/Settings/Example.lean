import PushRelay.Settings.Basic

/-! An annotated settings file to start from. -/
namespace PushRelay.Settings

def exampleLines : List String :=
  ["# Push relay configuration",
    "# PN_* environment variables override these settings",
    "",
    "[core]",
    "host = \"0.0.0.0\"",
    "port = 1056",
    "workers = 8",
    "queues = 512",
    "notification_max = 100",
    "pusher_max = 0",
    "shutdown_timeout = 30",
    "allows_empty_message = false",
    "",
    "[ios]",
    "enabled = true",
    "pem_cert_path = \"cert.pem\"",
    "pem_key_path = \"key.pem\"",
    "sandbox = true",
    "topic = \"com.example.app\"",
    "timeout = 5",
    "keepalive_timeout = 90",
    "keepalive_conns = 8",
    "retry_max = 1",
    "",
    "[android]",
    "enabled = true",
    "apikey = \"server-key\"",
    "use_fcm = true",
    "timeout = 5",
    "retry_max = 1",
    "",
    "[fcm_v1]",
    "enabled = false",
    "project_id = \"\"",
    "credentials_file = \"\"",
    "",
    "[log]",
    "level = \"info\""]

def exampleText : String := String.join (exampleLines.map (· ++ "\n"))

end PushRelay.Settings
