import BenchReport.Json.Codec
import BenchReport.Text.Blank
set_option autoImplicit false

namespace BenchReport

/-- Engines whose results are exchanges of a request and a response. -/
inductive RequestEngine where
  | http
  | http2
  | graphql
  | graphqlh2
  | grpc
  | websocket
  deriving DecidableEq

inductive Engine where
  | request (e : RequestEngine)
  | udp
  | playwright
  | task
  deriving DecidableEq

namespace Engine

def all : List Engine :=
  [.request .http, .request .http2, .request .graphql, .request .graphqlh2, .request .grpc,
    .request .websocket, .udp, .playwright, .task]

def name : Engine → String
  | .request .http => "http"
  | .request .http2 => "http2"
  | .request .graphql => "graphql"
  | .request .graphqlh2 => "graphqlh2"
  | .request .grpc => "grpc"
  | .request .websocket => "websocket"
  | .udp => "udp"
  | .playwright => "playwright"
  | .task => "task"

/-- The engine of a name, blanks around it and the case of its ASCII letters aside. -/
def ofName? (s : String) : Option Engine :=
  let wanted := (Text.trimChars s.toList).map Char.toLower
  all.find? fun e => e.name.toList == wanted

theorem mem_all (e : Engine) : e ∈ all := by
  cases e with
  | request r => cases r <;> decide
  | _ => decide

def codec : Codec Engine := Codec.word all name

end Engine

end BenchReport
