import TokenGate.Url.Reader

/-!
# Fetching documents over the network

The network is a function from a URL, and the exchanges that the same operation had before, to a
reply. A client sends one request per fetch, and another one to wherever an answer redirects it, on
any host, up to ten times. It gives up when the timeout has passed since the first. What a fetch
does is the answer or the fault it ends with, all exchanges it had, and the time it took, in
milliseconds.

An exchange takes no time unless it stays without an answer, and an answer comes with the whole of
its body. Nothing stands between the client and the server, and a connection with encryption is like
any other.
-/

/-!
## Status codes of HTTP

The standard reasons of status codes, and the two ways in which a status is written: with a
placeholder where there is no standard reason, or with nothing in its place.
-/

namespace TokenGate.Http

/-- The standard reasons. -/
def reasons : List (Nat × String) :=
  [(100, "Continue"), (101, "Switching Protocols"), (102, "Processing"), (200, "OK"),
    (201, "Created"), (202, "Accepted"), (203, "Non Authoritative Information"),
    (204, "No Content"), (205, "Reset Content"), (206, "Partial Content"), (207, "Multi-Status"),
    (208, "Already Reported"), (226, "IM Used"), (300, "Multiple Choices"),
    (301, "Moved Permanently"), (302, "Found"), (303, "See Other"), (304, "Not Modified"),
    (305, "Use Proxy"), (307, "Temporary Redirect"), (308, "Permanent Redirect"),
    (400, "Bad Request"), (401, "Unauthorized"), (402, "Payment Required"), (403, "Forbidden"),
    (404, "Not Found"), (405, "Method Not Allowed"), (406, "Not Acceptable"),
    (407, "Proxy Authentication Required"), (408, "Request Timeout"), (409, "Conflict"),
    (410, "Gone"), (411, "Length Required"), (412, "Precondition Failed"),
    (413, "Payload Too Large"), (414, "URI Too Long"), (415, "Unsupported Media Type"),
    (416, "Range Not Satisfiable"), (417, "Expectation Failed"), (418, "I'm a teapot"),
    (421, "Misdirected Request"), (422, "Unprocessable Entity"), (423, "Locked"),
    (424, "Failed Dependency"), (425, "Too Early"), (426, "Upgrade Required"),
    (428, "Precondition Required"), (429, "Too Many Requests"),
    (431, "Request Header Fields Too Large"), (451, "Unavailable For Legal Reasons"),
    (500, "Internal Server Error"), (501, "Not Implemented"), (502, "Bad Gateway"),
    (503, "Service Unavailable"), (504, "Gateway Timeout"), (505, "HTTP Version Not Supported"),
    (506, "Variant Also Negotiates"), (507, "Insufficient Storage"), (508, "Loop Detected"),
    (510, "Not Extended"), (511, "Network Authentication Required")]

/-- A status with its reason or a placeholder. -/
def statusLine (status : Nat) : String :=
  s!"{status} " ++ (reasons.lookup status).getD "<unknown status code>"

/-- A status with its reason, if there is one. -/
def statusText (status : Nat) : String :=
  s!"{status} " ++ (reasons.lookup status).getD ""

/-- Whether a status reports success. -/
def isSuccess (status : Nat) : Bool := 200 ≤ status && status < 300

/-- Whether a status sends the client elsewhere, if the answer says where. -/
def isRedirect (status : Nat) : Bool := status ∈ [301, 302, 303, 307, 308]

/-- Whether a status blames the client. -/
def isClientError (status : Nat) : Bool := 400 ≤ status && status < 500

/-- Whether a status blames the server. -/
def isServerError (status : Nat) : Bool := 500 ≤ status && status < 600

/-! ## Requests and redirects -/

/-- What becomes of a request. -/
inductive Reply
  /-- No connection comes about. -/
  | unreachable
  /-- The connection is closed without an answer. -/
  | dropped
  /-- No answer comes before the client gives up. -/
  | silent
  /-- An answer; its `location` is where it says that the client should go. -/
  | answered (status : Nat) (location : Option String) (body : List UInt8)
  deriving DecidableEq, Repr

/-- A request and what became of it. -/
structure Exchange where
  url : Url
  reply : Reply
  deriving DecidableEq, Repr

/-- What becomes of requests, given the earlier exchanges of an operation. -/
structure Network where
  reply : List Exchange → Url → Reply

/-- The exchange that a request for a URL is after others. -/
def Network.exchange (net : Network) (earlier : List Exchange) (u : Url) : Exchange :=
  ⟨u, net.reply earlier u⟩

/-- The network on which no server can be reached. -/
def Network.unreachable : Network := ⟨fun _ _ => .unreachable⟩

/-- Whether a request came to a server. -/
def Exchange.isReceived (e : Exchange) : Bool := e.reply ≠ .unreachable

/-- Where an exchange redirects the client to. A place that is no URL, or that no request can be
made for, is not gone to. -/
def Exchange.redirect? (e : Exchange) : Option Url :=
  match e.reply with
  | .answered status (some location) _ =>
    if isRedirect status then
      ((e.url.join location).toOption.filter Url.isAddressable).map ({ · with fragment := none })
    else none
  | _ => none

/-- Why a document cannot be fetched. -/
inductive FetchFault
  /-- The address is no URL. -/
  | builder
  /-- The URL is none of the web. -/
  | scheme (url : Url)
  /-- The request is not answered. -/
  | send (url : Url)
  /-- The answer is one redirect more than are followed. -/
  | redirect (url : Url)
  /-- The answer cannot be read. -/
  | decode (url : Url)
  /-- The answer reports an error. -/
  | status (code : Nat) (url : Url)
  deriving DecidableEq, Repr

/-- The wording of a fault. -/
def FetchFault.message : FetchFault → String
  | .builder => "builder error"
  | .scheme u => s!"builder error for url ({u.render})"
  | .send u => s!"error sending request for url ({u.render})"
  | .redirect u => s!"error following redirect for url ({u.render})"
  | .decode u => s!"error decoding response body for url ({u.render})"
  | .status code u =>
    let side := if isClientError code then "client" else "server"
    s!"HTTP status {side} error ({statusText code}) for url ({u.render})"

/-- An answer to a request. -/
structure Answer where
  url : Url
  status : Nat
  body : List UInt8

/-- What a fetch does. -/
structure Fetch (α : Type) where
  result : Except FetchFault α
  exchanges : List Exchange
  /-- How long it takes. -/
  elapsed : Nat

/-- A fetch whose result is looked at further. -/
def Fetch.andThen {α β : Type} (f : Fetch α) (next : α → Except FetchFault β) : Fetch β :=
  ⟨f.result.bind next, f.exchanges, f.elapsed⟩

/-- A fetch that an exchange led to. -/
def Fetch.behind {α : Type} (e : Exchange) (f : Fetch α) : Fetch α :=
  { f with exchanges := e :: f.exchanges }

@[simp] theorem Fetch.result_behind {α : Type} (e : Exchange) (f : Fetch α) :
    (f.behind e).result = f.result := rfl

@[simp] theorem Fetch.exchanges_behind {α : Type} (e : Exchange) (f : Fetch α) :
    (f.behind e).exchanges = e :: f.exchanges := rfl

@[simp] theorem Fetch.elapsed_behind {α : Type} (e : Exchange) (f : Fetch α) :
    (f.behind e).elapsed = f.elapsed := rfl

/-- A client of the network. -/
structure Client where
  /-- How long it waits for an answer. -/
  timeout : Nat
  deriving DecidableEq, Repr

/-- The URL of an address, if a request can be made for it. -/
def target (address : String) : Except FetchFault Url :=
  match Url.ofText address with
  | .error _ => .error .builder
  | .ok u => if u.isWeb && u.isAddressable then .ok u else .error (.scheme u)

/-- How many redirects are followed. -/
def maxRedirects : Nat := 10

/-- How a fetch ends with an exchange that does not redirect; `origin` is where it began. -/
def Client.conclude (c : Client) (origin : Url) (e : Exchange) : Fetch Answer :=
  match e.reply with
  | .unreachable | .dropped => ⟨.error (.send origin), [e], 0⟩
  | .silent => ⟨.error (.send origin), [e], c.timeout⟩
  | .answered status _ body => ⟨.ok ⟨e.url, status, body⟩, [e], 0⟩

/-- Sends a request, and follows some redirects at most. -/
def Client.send (c : Client) (net : Network) (origin : Url) (redirects : Nat)
    (earlier : List Exchange) (u : Url) : Fetch Answer :=
  let e := net.exchange earlier u
  match e.redirect?, redirects with
  | none, _ => c.conclude origin e
  | some _, 0 => ⟨.error (.redirect u), [e], 0⟩
  | some next, redirects + 1 =>
    if next.isWeb then (c.send net origin redirects (earlier ++ [e]) next).behind e
    else ⟨.error (.scheme next), [e], 0⟩

/-- Fetches what is at an address. -/
def Client.get (c : Client) (net : Network) (earlier : List Exchange) (address : String) :
    Fetch Answer :=
  match target address with
  | .error f => ⟨.error f, [], 0⟩
  | .ok u => c.send net u maxRedirects earlier u

/-- Refuses an answer that reports an error. -/
def Answer.checked (a : Answer) : Except FetchFault Answer :=
  if isClientError a.status || isServerError a.status then .error (.status a.status a.url)
  else .ok a

end TokenGate.Http
