import RetailReport.Cache.Wire
import RetailReport.Query.Wire
import RetailReport.Service.Basic
import RetailReport.Sync.Wire
import RetailReport.Text.Percent

/-!
# The HTTP interface

The interface answers with JSON: success or failure, and the data or the error, whose code is that of
the reply.  A request whose body is not what its route wants is refused with status 400, one without
a route with status 404, both without a body of the interface.

## Main definitions

* `HttpRequest`, `HttpReply`.
* `HttpRoute`, `HttpRoute.of?`: the routes.
* `ReportService.respond`: the reply to a request.
-/

namespace RetailReport

/-- A request. -/
structure HttpRequest where
  /-- The method. -/
  method : String
  /-- The path with what follows it, or an absolute address. -/
  target : String
  /-- The body. -/
  body : String

/-- A reply. -/
structure HttpReply where
  /-- The status. -/
  status : Nat
  /-- The body, if it is JSON of the interface. -/
  body : Option Json := none

namespace HttpReply

/-- A reply with data. -/
def success (status : Nat) (data : Json) : HttpReply where
  status
  body := some (.object [("success", .bool true), ("data", data), ("error", .null)])

/-- A reply with an error. -/
def failure (status : Nat) (message : String) : HttpReply where
  status
  body := some (.object
    [("success", .bool false), ("data", .null),
     ("error", .object [("code", .int status), ("message", .string message)])])

/-- A reply with what has gone wrong. -/
def ofError (e : ReportError) : HttpReply := failure e.status e.message

end HttpReply

/-! ### Routes -/

/-- What a request can be about. -/
inductive HttpRoute where
  /-- Whether the service runs. -/
  | health
  /-- What has been measured, as text. -/
  | metrics
  /-- An answer to a request for fields. -/
  | query
  /-- An answer that both engines agree on. -/
  | verify
  /-- The state of the router. -/
  | status
  /-- A new choice of the engine. -/
  | refresh
  /-- A forced engine. -/
  | force (engine : String)
  /-- A change of some stores. -/
  | mutations
  /-- What the synchronizer has done. -/
  | syncStats
  /-- What the slice cache has done. -/
  | cacheStats
deriving DecidableEq, Repr

namespace HttpRoute

/-- The bytes that stay encoded while a route is looked for: the percent sign, the slash and the plus
sign. -/
def staysEncoded (b : UInt8) : Bool := b == 0x25 || b == 0x2F || b == 0x2B

/-- Whether a character can stand in a scheme. -/
def isSchemeChar (c : Char) : Bool := c.isAlphanum || c = '+' || c = '-' || c = '.'

/-- What follows the scheme of an absolute address. -/
def afterScheme? (cs : List Char) : Option (List Char) :=
  match cs.dropWhile isSchemeChar with
  | ':' :: '/' :: '/' :: rest => some rest
  | _ => none

/-- Whether a character ends a path: a query or a fragment follows. -/
def endsPath (c : Char) : Bool := c = '?' || c = '#'

/-- The path of a target.  An absolute address names a host before it; without a path it is about
the root. -/
def targetPath (target : List Char) : List Char :=
  match afterScheme? target with
  | some rest =>
    match (rest.dropWhile fun c => c ≠ '/' && !endsPath c).takeWhile fun c => !endsPath c with
    | [] => ['/']
    | path => path
  | none => target.takeWhile fun c => !endsPath c

/-- The path of a target as routes are looked for: decoded apart from some bytes. -/
def routingPath (target : String) : String :=
  let path := String.ofList (targetPath target.toList)
  Text.lossyString (Text.percentDecode staysEncoded path.toUTF8.toList)

/-- A part of a path, decoded throughout. -/
def decodedPart (part : String) : String :=
  Text.lossyString (Text.percentDecode (fun _ => false) part.toUTF8.toList)

/-- What comes before the name of an engine. -/
def forcePath : String := "/api/router/force/"

/-- The engine that a path forces, if it does. -/
def forced? (path : String) : Option String :=
  if forcePath.toList.isPrefixOf path.toList then
    let name := path.toList.drop forcePath.length
    if name.isEmpty || name.contains '/' then none else some (decodedPart (String.ofList name))
  else none

/-- The routes of reading. -/
def reading : List (String × HttpRoute) :=
  [("/health", .health), ("/metrics", .metrics), ("/api/router/status", .status),
   ("/api/sync/stats", .syncStats), ("/api/cache/stats", .cacheStats)]

/-- The routes of writing, apart from those that force an engine. -/
def writing : List (String × HttpRoute) :=
  [("/api/query", .query), ("/api/query/verify", .verify), ("/api/router/refresh", .refresh),
   ("/api/mutations", .mutations)]

/-- The route of a request. -/
def of? (r : HttpRequest) : Option HttpRoute :=
  let path := routingPath r.target
  if r.method = "GET" then reading.lookup path
  else if r.method = "POST" then (writing.lookup path).or ((forced? path).map .force)
  else none

end HttpRoute

/-! ### Bodies -/

/-- Reads the stores of a notification. -/
def decodeNotification : Json.Decoder (List String) := fun j => do
  let keys ← Json.Shape.read
    [Json.Shape.field "keys" (Json.list Json.text) fun v (_ : Option (List String)) => some v] none j
  Json.need keys

/-- The state of the router as JSON; of the last choice, only whether there was one. -/
def RouterStatus.toJson (s : RouterStatus) : Json :=
  .object
    [("engine", s.engine.toJson), ("forced", (s.forced.map Engine.toJson).getD .null),
     ("record_count", .int s.recordCount), ("switch_threshold", .int s.switchThreshold),
     ("rollup_healthy", .bool s.rollupHealthy), ("partition_healthy", .bool s.partitionHealthy),
     ("last_refresh", .bool s.refreshed), ("queries", .int s.queries),
     ("degraded", .int s.degraded), ("inconsistencies", .int s.inconsistencies)]

/-- A routed result as JSON. -/
def RoutedResult.toJson (r : RoutedResult) : Json :=
  .object
    [("result", r.result.toJson), ("engine_used", r.engineUsed.toJson),
     ("degraded", .bool r.degraded)]

/-- A choice of the engine as JSON. -/
def engineReply (engine : Engine) (forced : Bool) : HttpReply :=
  .success 200 (.object [("engine", engine.toJson), ("forced", .bool forced)])

/-! ### Replies -/

namespace ReportService

/-- The reply with an outcome. -/
def replyWith (reply : α → HttpReply) (outcome : Except ReportError α × ReportService) :
    HttpReply × ReportService :=
  match outcome with
  | (.ok a, s) => (reply a, s)
  | (.error e, s) => (.ofError e, s)

/-- The reply to a request whose body is to be decoded. -/
def withBody (d : Json.Decoder α) (body : String) (s : ReportService)
    (reply : α → HttpReply × ReportService) : HttpReply × ReportService :=
  match Json.decodeText d body with
  | .ok a => reply a
  | .error _ => (⟨400, none⟩, s)

/-- The reply to a request that forces an engine. -/
def respondForce (s : ReportService) (name : String) : HttpReply × ReportService :=
  match Engine.ofName? name with
  | some engine => replyWith (fun () => engineReply engine true) (s.force engine)
  | none => (.failure 400 (Engine.unknownMessage name), s)

/-- The reply to a request on a route. -/
def respondOn (s : ReportService) (body : String) : HttpRoute → HttpReply × ReportService
  | .health =>
    (⟨200, some (.object
      [("status", .string "ok"), ("service", .string "qareport"),
       ("engine", s.status.engine.toJson)])⟩, s)
  | .metrics => (⟨200, none⟩, s)
  | .query =>
    withBody MetricRequest.decode body s fun r =>
      replyWith (fun routed => .success 200 routed.toJson) (s.query r)
  | .verify =>
    withBody MetricRequest.decode body s fun r =>
      replyWith (fun result => .success 200 result.toJson) (s.verify r)
  | .status => (.success 200 s.status.toJson, s)
  | .refresh => replyWith (fun engine => engineReply engine false) s.refresh
  | .force name => s.respondForce name
  | .mutations =>
    withBody decodeNotification body s fun keys =>
      let keys := KeySet.ofList keys
      replyWith (fun () => .success 202 (.object [("accepted", .int keys.size)])) (s.notify keys)
  | .syncStats => (.success 200 s.synchronizer.stats.toJson, s)
  | .cacheStats => (.success 200 s.cache.stats.toJson, s)

/-- **The reply to a request.** -/
def respond (s : ReportService) (r : HttpRequest) : HttpReply × ReportService :=
  match HttpRoute.of? r with
  | some route => s.respondOn r.body route
  | none => (⟨404, none⟩, s)

end ReportService

end RetailReport
