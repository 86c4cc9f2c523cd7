import FleetSharding.SortedMap

/-!
# Settings of the log

Where spans are exported to, under which name, and in which form the log is written, as environment
variables say.
-/

namespace FleetSharding

structure TracingConfig where
  /-- Nothing is exported without an endpoint. -/
  endpoint : Option String
  serviceName : String
  logFormat : String
  deriving DecidableEq, Repr

namespace TracingConfig

def ofEnv (env : SortedMap String) : TracingConfig :=
  ⟨(env.get? "OTEL_EXPORTER_OTLP_ENDPOINT").filter (!·.isEmpty),
    (env.get? "OTEL_SERVICE_NAME").getD "telefleet-server",
    (env.get? "LOG_FORMAT").getD "text"⟩

/-- The format is compared without regard to the case of ASCII letters. -/
def isJson (c : TracingConfig) : Bool :=
  c.logFormat.toList.map Char.toLower == "json".toList

end TracingConfig

end FleetSharding
