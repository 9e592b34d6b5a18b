import JobConsole.Http.Api

/-! # The server

Around the routes every answer gets an id of its request, and outermost the headers by which browsers
of the configured origins may use it. Requests with the method OPTIONS are answered there.
-/

namespace JobConsole.Http.Server

def requestIdName : String := "x-request-id"

/-- The id that the client gave the request, or a fresh one. -/
def requestId (a : Arrival) (r : Request) : String :=
  (r.headers.lookup requestIdName).getD a.requestId

/-- The headers about origins that every answer has. -/
def originHeaders (c : Console) (r : Request) : Headers :=
  let allowed := (r.headers.lookup "origin").filter c.config.corsOrigins.contains
  (allowed.map (("access-control-allow-origin", ·))).toList ++
    [ ("access-control-allow-credentials", "true"),
      ("vary", "origin, access-control-request-method, access-control-request-headers") ]

/-- The answer to the question what may be requested. -/
def preflight (r : Request) : Response :=
  let allow := (Route.ofTarget r.target).map fun p => ("allow", p.allow)
  (Response.empty 200).addHeaders <|
    allow.toList ++
      [ ("access-control-allow-methods", "GET,POST,PATCH"),
        ("access-control-allow-headers", "content-type,accept,cache-control"),
        ("access-control-max-age", "3600") ]

/-- The answer to a request, and the console after it. -/
def respond (c : Console) (a : Arrival) (r : Request) : Response × Console :=
  let origin := originHeaders c r
  if r.method = .options then ((preflight r).addHeaders origin, c)
  else
    let (response, c') := Api.route c a r
    ((response.addHeaders [(requestIdName, requestId a r)]).addHeaders origin, c')

end JobConsole.Http.Server
