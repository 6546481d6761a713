import ModelGateway.Gateway.Pipeline

namespace ModelGateway.Httpapi

open Gateway (Request Pipeline Ports World)

abbrev Header := GoMap Str (List Str)

def Header.get (h : Header) (key : Str) : Str :=
  ((h.lookup key).getD []).headD []

abbrev TraceID := { bytes : Str // bytes.length = 16 }

namespace TraceID

def zero : TraceID := ⟨List.replicate 16 0, rfl⟩

def isValid (id : TraceID) : Bool :=
  id ≠ zero

end TraceID

structure CompletionRequest where
  model : Str
  stream : Bool

structure Server where
  extract : Header → TraceID
  tracing : Bool
  unmarshal : Str → Except GoError CompletionRequest
  trimSpace : Str → Str
  printable : Str → Bool

structure Call where
  endpoint : Endpoint
  header : Header
  body : Str
  readErr : Option GoError
  clientIP : Option Addr
  deadline : Int
  flusher : Bool
  traceDraw : TraceID
  idDraw : TraceID

def maxBodyBytes : Nat := 8388608

def maxModelNameBytes : Nat := 256

def traceIDFrom (id : TraceID) : Str :=
  if id.isValid then Pii.hexEncode id.val else []

namespace Server

variable (s : Server) (c : Call)

def startSpan : TraceID :=
  let remote := s.extract c.header
  if remote.isValid then remote
  else if s.tracing then c.traceDraw
  else .zero

def requestID : Str :=
  let id := traceIDFrom (s.startSpan c)
  if id = [] then Pii.hexEncode c.idDraw.val else id

def validModelName (name : Str) : Bool :=
  if name = [] ∨ maxModelNameBytes < name.length then false else s.printable name

def bearerToken (h : Header) : Str :=
  let header := h.get (str "Authorization")
  if (str "Bearer ").isPrefixOf header then
    s.trimSpace (header.drop (str "Bearer ").length)
  else
    s.trimSpace header

def parse : Except GoError Request :=
  if maxBodyBytes < c.body.length then
    .error (.invalid (str "request body exceeds the " ++ Str.ofNat maxBodyBytes ++ str " byte limit"))
  else
    match c.readErr with
    | some err => .error (.wrap .invalidRequest (str "reading the request body") false err)
    | none =>
      match s.unmarshal c.body with
      | .error err => .error (.wrap .invalidRequest (str "parsing the request body") false err)
      | .ok parsed =>
        if parsed.model = [] then
          .error (.invalid (str "the request has no model"))
        else if s.validModelName parsed.model then
          .ok {
            requestMeta := {
              requestID := s.requestID c
              model := parsed.model
              endpoint := c.endpoint
              stream := parsed.stream
              payloadBytes := c.body.length
              sourceIP := c.clientIP
              idempotencyKey := c.header.get (str "Idempotency-Key")
              deadline := c.deadline
            }
            apiKey := s.bearerToken c.header
            body := c.body
            deepInspection := false
          }
        else
          .error (.invalid (str "the model name is malformed or too long"))

end Server

structure Serving where
  pipeline : Pipeline
  ports : Ports
  snap : Snapshot
  world : World
  usage : TokenUsage
  streamErr : Option GoError

def Server.serveCompletion (s : Server) (v : Serving) (c : Call) : World :=
  let w := { v.world with events := [], jobs := [] }
  match s.parse c with
  | .error _ => w
  | .ok req =>
    if req.requestMeta.stream then
      if c.flusher then
        match v.pipeline.handleStream v.ports v.snap req w with
        | ((_, some _), w) => w
        | ((result, none), w) =>
          (v.pipeline.finish v.ports v.snap result v.usage v.streamErr w).2
      else
        w
    else
      (v.pipeline.handle v.ports v.snap req w).2

end ModelGateway.Httpapi
