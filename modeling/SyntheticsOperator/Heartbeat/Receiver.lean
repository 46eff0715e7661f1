import SyntheticsOperator.Heartbeat.Token
import SyntheticsOperator.Results.Message
import SyntheticsOperator.Support.Histories

/-!
# The heartbeat receiver

The token index, the handler that keeps it, and the HTTP handler that turns a
request into a ping.  Only `onSpec` and the warm-up timer write the index, each
in one critical section.  A request reads it in `lookup`, and does the rest without
the lock: for an unknown token it calls `Ready`, whose answer is an argument of
`servePing`, and for a known one it publishes.  `Serving` interleaves the two halves
of any number of requests with the events.
-/

namespace SyntheticsOperator.Heartbeat

open SyntheticsOperator.Api (Kind NamespacedName)
open SyntheticsOperator.Results (SpecUpdate HeartbeatPing)
open SyntheticsOperator.Support

/-! ## The token index -/

/-- `identities` maps a token to the Heartbeat that owns it, `tokens` back. -/
structure Receiver where
  identities : Finmap fun _ : GoString => NamespacedName
  tokens : Finmap fun _ : NamespacedName => GoString
  warm : Bool

/-- The token a spec update installs: none for a tombstone, a spec without a
payload or an empty token. -/
def installedToken (msg : SpecUpdate) : Option GoString :=
  if msg.deleted then none
  else
    match msg.heartbeat with
    | none => none
    | some payload => if payload.token = [] then none else some payload.token

namespace Receiver

def empty : Receiver := ⟨∅, ∅, false⟩

def markWarm (r : Receiver) : Receiver := { r with warm := true }

/-- Drops the token `name` used to have, whoever owns it now. -/
def evict (r : Receiver) (name : NamespacedName) : Receiver :=
  match r.tokens.lookup name with
  | some previous =>
      { r with identities := r.identities.erase previous, tokens := r.tokens.erase name }
  | none => r

def install (r : Receiver) (name : NamespacedName) (token : GoString) : Receiver :=
  { r with
    identities := r.identities.insert token name
    tokens := r.tokens.insert name token }

def onSpec (r : Receiver) (msg : SpecUpdate) : Receiver :=
  if msg.kind ≠ .heartbeat then r
  else
    let name : NamespacedName := ⟨msg.ns, msg.name⟩
    let r := r.markWarm.evict name
    match installedToken msg with
    | none => r
    | some token => r.install name token

def lookup (r : Receiver) (token : GoString) : Option NamespacedName :=
  r.identities.lookup token

end Receiver

/-! ## Requests -/

/-- What reading a request body yields: these bytes, and then an error or the
end. -/
structure Body where
  bytes : GoString
  failed : Bool
deriving DecidableEq

structure Request where
  method : String
  path : GoString
  body : Option Body
deriving DecidableEq

structure Outcome where
  failed : Bool
  exitCode : Int
deriving DecidableEq

/-- Headers are those the handler sets itself. -/
structure Response where
  status : Nat
  headers : List (String × String)
  text : String
deriving DecidableEq

def notFound : Response := ⟨404, [], "404 page not found\n"⟩

def maxOutputBytes : Nat := 4096

def failSuffix : GoString := GoString.lit "fail"

/-- `none` is `ok = false`. -/
def parsePath (path : GoString) : Option (GoString × Outcome) :=
  match GoString.split 0x2F (GoString.trim 0x2F path) with
  | [] => none
  | token :: suffixes =>
      if token = [] then none
      else if acceptableToken token ≠ none then none
      else
        match suffixes with
        | [] => some (token, ⟨false, 0⟩)
        | [suffix] =>
            if suffix = failSuffix then some (token, ⟨true, 0⟩)
            else
              match GoString.atoi suffix with
              | none => none
              | some code => if code < 0 then none else some (token, ⟨code ≠ 0, code⟩)
        | _ => none

def readOutput (req : Request) : GoString :=
  match req.body with
  | none => []
  | some body =>
      if req.method ≠ "POST" then []
      else
        let buf := body.bytes.take maxOutputBytes
        if body.failed && buf.isEmpty then [] else GoString.trimSpace buf

/-- What a request leads to: the response, and the `PublishHeartbeatPing` call
with whether it succeeded.  A failed call publishes nothing. -/
structure Served where
  response : Response
  called : Option (HeartbeatPing × Bool)
deriving DecidableEq

def newPing (name : NamespacedName) (now : Time) (outcome : Outcome) (req : Request) :
    HeartbeatPing where
  name := name.name
  ns := name.ns
  receivedAt := now
  failed := outcome.failed
  exitCode := outcome.exitCode
  output := readOutput req

def record (publish : HeartbeatPing → Bool) (ping : HeartbeatPing) : Served :=
  if publish ping then
    ⟨⟨200, [("Content-Type", "text/plain; charset=utf-8")], "ok\n"⟩, some (ping, true)⟩
  else ⟨⟨500, [], "failed to record heartbeat\n"⟩, some (ping, false)⟩

inductive Waiting where
  | unknown
  | known (name : NamespacedName) (outcome : Outcome)
deriving DecidableEq

/-- `servePing` up to the end of its `lookup`; `.error` is an answer that needs none. -/
def lookupPing (r : Receiver) (req : Request) : Except Served Waiting :=
  if req.method ≠ "GET" ∧ req.method ≠ "HEAD" ∧ req.method ≠ "POST" then
    .error ⟨⟨405, [("Allow", "GET, HEAD, POST")], "method not allowed\n"⟩, none⟩
  else
    match parsePath req.path with
    | none => .error ⟨notFound, none⟩
    | some (token, outcome) =>
        match r.lookup token with
        | none => .ok .unknown
        | some name => .ok (.known name outcome)

/-- The rest of it.  `ready` is what `Ready` answers, `now` what the clock reads, and
`publish` says for which pings the bus returns no error. -/
def Waiting.finish (ready : Bool) (now : Time) (publish : HeartbeatPing → Bool) (req : Request) :
    Waiting → Served
  | .unknown =>
      if ready then ⟨notFound, none⟩
      else
        ⟨⟨503, [("Retry-After", "5")],
          "heartbeat receiver is still loading; retry shortly\n"⟩, none⟩
  | .known name outcome => record publish (newPing name now outcome req)

/-- A request whose `lookup` reads the index `r`. -/
def servePing (r : Receiver) (ready : Bool) (now : Time) (publish : HeartbeatPing → Bool)
    (req : Request) : Served :=
  match lookupPing r req with
  | .error served => served
  | .ok waiting => waiting.finish ready now publish req

section ServePing

variable {r : Receiver} {ready : Bool} {now : Time} {publish : HeartbeatPing → Bool}
  {req : Request} {token : GoString} {outcome : Outcome}
  (hmethod : req.method = "GET" ∨ req.method = "HEAD" ∨ req.method = "POST")
  (hpath : parsePath req.path = some (token, outcome))
include hmethod hpath

theorem servePing_unknown (hlookup : r.lookup token = none) :
    servePing r ready now publish req = Waiting.unknown.finish ready now publish req := by
  have hallowed : ¬ (req.method ≠ "GET" ∧ req.method ≠ "HEAD" ∧ req.method ≠ "POST") := by
    tauto
  simp only [servePing, lookupPing, if_neg hallowed, hpath, hlookup]

theorem servePing_known {name : NamespacedName} (hlookup : r.lookup token = some name) :
    servePing r ready now publish req = record publish (newPing name now outcome req) := by
  have hallowed : ¬ (req.method ≠ "GET" ∧ req.method ≠ "HEAD" ∧ req.method ≠ "POST") := by
    tauto
  simp only [servePing, lookupPing, if_neg hallowed, hpath, hlookup, Waiting.finish]

end ServePing

def Served.published (served : Served) : Option HeartbeatPing :=
  match served.called with
  | some (ping, true) => some ping
  | _ => none

/-! ## Runs -/

/-- What writes the index: a spec update, or the warm-up timer. -/
inductive Event where
  | spec (msg : SpecUpdate)
  | warmup

namespace Receiver

def handle (r : Receiver) : Event → Receiver
  | .spec msg => r.onSpec msg
  | .warmup => r.markWarm

def run (events : List Event) : Receiver := events.foldl handle empty

theorem run_snoc (events : List Event) (event : Event) :
    run (events ++ [event]) = (run events).handle event :=
  List.foldl_concat ..

end Receiver

/-- The spec update of the Heartbeat `name` in an event. -/
def specOf (name : NamespacedName) : Event → Option SpecUpdate
  | .spec msg => if msg.key = ⟨.heartbeat, name⟩ then some msg else none
  | .warmup => none

/-- The token of the last processed spec of `name`, if that spec installs one. -/
def liveToken (name : NamespacedName) (events : List Event) : Option GoString :=
  (Histories.lastSome (specOf name) events).bind installedToken

/-! ## Requests in flight -/

/-- A request after its `lookup`, with the events before that. -/
structure Handling where
  req : Request
  looked : List Event
  waiting : Waiting

/-- An answered request, with the events before its `lookup` and those before its answer. -/
structure Handled where
  req : Request
  looked : List Event
  answered : List Event
  served : Served

/-- The index is that of `history`. -/
structure Serving where
  history : List Event
  handling : List Handling
  handled : List Handled

namespace Serving

inductive Step where
  | event (e : Event)
  /-- a request comes in and runs to the end of its `lookup` -/
  | lookup (req : Request)
  /-- the rest of a request, with the clock and whether the bus takes the ping -/
  | finish (i : Nat) (now : Time) (sent : Bool)

def step (s : Serving) : Step → Serving
  | .event e => { s with history := s.history ++ [e] }
  | .lookup req =>
      match lookupPing (Receiver.run s.history) req with
      | .error served =>
          { s with handled := s.handled ++ [⟨req, s.history, s.history, served⟩] }
      | .ok waiting => { s with handling := s.handling ++ [⟨req, s.history, waiting⟩] }
  | .finish i now sent =>
      match s.handling[i]? with
      | none => s
      | some h =>
          let served :=
            h.waiting.finish (Receiver.run s.history).warm now (fun _ => sent) h.req
          { s with
            handling := s.handling.eraseIdx i
            handled := s.handled ++ [⟨h.req, h.looked, s.history, served⟩] }

def run (steps : List Step) : Serving := steps.foldl step ⟨[], [], []⟩

theorem run_snoc (steps : List Step) (a : Step) : run (steps ++ [a]) = (run steps).step a :=
  List.foldl_concat ..

end Serving

end SyntheticsOperator.Heartbeat
