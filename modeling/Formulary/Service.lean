import Formulary.Configuration
import Formulary.Inquiry
import Formulary.Json.Reader
import Formulary.Json.Writer
import Formulary.Recency
import Formulary.Submission
import Formulary.Text.Encoding

/-! # The service

The service answers three endpoints: the catalog, checking a formula and submitting one. It keeps
the configuration that it first read from the environment, and the catalogs of the configurations
used last. A request for a formula is looked at in a fixed order: the form of its body, the
configuration, the catalog, the fields of the body, the operator, and then the formula.

A request comes with its path as the server has decoded it, and with a content type that says that
its body is JSON. Under other paths than its three the service has pages of its own, which describe
it or lead on to an endpoint; what they say is given from outside.
-/

namespace Formulary

/-- The methods of requests that some endpoint takes, and all others. -/
inductive Method where
  | get
  | post
  | other
deriving DecidableEq, Repr

structure Request where
  method : Method
  path : Text
  body : List UInt8
  stamp : Stamp
deriving DecidableEq, Repr

/-- A response, whose body is either the document of an endpoint or a detail. -/
structure Response where
  status : Nat
  body : Json

/-- What stops a request without a response. -/
inductive Escape where
  | configuration (f : BooleanFault)
  | load (f : LoadFault)
  | absentOperator (e : AbsentOperator)
  | notFinite
  | detailNotText (f : Text.Utf8.SurrogateFault)
  | documentNotText (f : Text.Utf8.SurrogateFault)
  | tooDeep (t : Task)
deriving DecidableEq, Repr

def Escape.message : Escape → Text
  | .configuration f => f.message
  | .load f => f.message
  | .absentOperator e => e.message
  | .notFinite => "Out of range float values are not JSON compliant"
  | .detailNotText f => f.message
  | .documentNotText f => "Error serializing to JSON: UnicodeEncodeError: " ++ f.message
  | .tooDeep _ => Task.message

/-- What can be asked of the service. -/
inductive Endpoint where
  | catalog
  | validate
  | submit
deriving DecidableEq, Repr

namespace Endpoint

def path : Endpoint → Text
  | .catalog => "/formulas/catalog"
  | .validate => "/formulas/validate"
  | .submit => "/formulas/submit"

def method : Endpoint → Method
  | .catalog => .get
  | _ => .post

/-- The endpoint of a path, behind which one line feed does not matter. -/
def ofPath? (path : Text) : Option Endpoint :=
  [catalog, validate, submit].find? (·.path == Text.dropFinalBreak path)

end Endpoint

/-! ## Responses -/

namespace Response

/-- A response that holds only a detail. It is sent as UTF-8, and its numbers are finite. -/
def detail (status : Nat) (d : Json) : Except Escape Response :=
  let body : Json := .object [("detail", d)]
  if !body.allFinite then .error .notFinite
  else
    match Text.Utf8.surrogateFault? body.compact with
    | some f => .error (.detailNotText f)
    | none => .ok ⟨status, body⟩

/-- A response that holds the document of an endpoint. It is written text by text. -/
def document (d : Json) : Except Escape Response :=
  match d.texts.findSome? Text.Utf8.surrogateFault? with
  | some f => .error (.documentNotText f)
  | none => .ok ⟨200, d⟩

def notFound : Except Escape Response := detail 404 (.str "Not Found")
def methodNotAllowed : Except Escape Response := detail 405 (.str "Method Not Allowed")
def unreadableBody : Except Escape Response :=
  detail 400 (.str "There was an error parsing the body")

/-- The body is not a JSON text. -/
def notJson (t : Json.Trouble) (position : Nat) : Except Escape Response :=
  detail 422 (.list [.object [("type", .str "json_invalid"),
    ("loc", .list [.str "body", .int position]), ("msg", .str "JSON decode error"),
    ("input", .object []), ("ctx", .object [("error", .str t.message)])]])

/-- The fields of a body are at fault; their values are echoed. -/
def refusedInput (d : Depths) (issues : List InputIssue) : Except Escape Response :=
  let entries : Json := .list (issues.map InputIssue.toJson)
  if d.room .echoing < entries.depth then .error (.tooDeep .echoing) else detail 422 entries

/-- The catalog cannot be loaded; some faults have no response. -/
def refusedLoad (f : LoadFault) : Except Escape Response :=
  if f.isReported then detail 500 (.str ("Formula catalog unavailable: " ++ f.message))
  else .error (.load f)

def unknownOperator (e : UnknownOperator) : Except Escape Response :=
  detail 422 (.str ("Unknown operator: " ++ e.symbol))

/-- The response to a formula that is only checked. -/
def validated (c : Catalog) (f : Formula) : Except Escape Response :=
  match Checker.checkFormula c f with
  | .error e => .error (.absentOperator e)
  | .ok v => document v.toJson

/-- The response to a formula that is submitted. -/
def submitted (k : Configuration) (stamp : Stamp) (c : Catalog) (f : Formula) :
    Except Escape Response :=
  match Submission.submit Guard.builtIn k.allowInvalid stamp ⟨f, c⟩ with
  | .error e => .error (.absentOperator e)
  | .ok (.received r, _) => document r.toJson
  | .ok (.blocked r, _) => detail 422 (Verdict.rejected r).toJson

end Response

/-! ## Bodies -/

/-- What a body holds. -/
inductive Body where
  | empty
  | json (v : Json)
  | malformed (t : Json.Trouble) (position : Nat)
  | unreadable

namespace Body

/-- Reads a body in the encoding that its first bytes show. -/
def ofBytes (d : Depths) (bytes : List UInt8) : Body :=
  if bytes.isEmpty then .empty
  else
    match Text.Encoding.read? bytes with
    | none => .unreadable
    | some t =>
      match Json.readWithin (d.room .parsing) t with
      | .ok v => .json v
      | .error (.malformed t position) => .malformed t position
      | .error _ => .unreadable

end Body

/-! ## Requests -/

/-- Where a service runs: its host, and the pages that it has under other paths. -/
structure Site extends Yaml.Host where
  pages : Method → Text → Option Response

/-- The state of the service and of what it reads. -/
structure Service where
  site : Site
  environment : Environment
  files : Files
  override? : Option Configuration
  remembered? : Option Configuration
  catalogs : Recency Configuration Catalog

namespace Service

/-- A service that has read nothing yet. -/
def initial (site : Site) : Service := ⟨site, .empty, .none, none, none, .empty⟩

/-- So many catalogs are remembered. -/
def capacity : Nat := 8

/-- The configuration in force: the override, the one read before, or the one the environment gives
now, which is then kept. -/
def configuration (s : Service) : Except BooleanFault (Configuration × Service) :=
  match s.override?, s.remembered? with
  | some k, _ => .ok (k, s)
  | none, some k => .ok (k, s)
  | none, none =>
    match Configuration.ofEnvironment s.environment with
    | .error f => .error f
    | .ok k => .ok (k, { s with remembered? := some k })

/-- The catalog of a configuration, from memory or from its file. -/
def catalog (s : Service) (k : Configuration) : Except LoadFault Catalog × Service :=
  let (found, catalogs) := s.catalogs.access capacity k (·.loadCatalog s.site.toHost s.files)
  (found, { s with catalogs := catalogs })

/-- Goes on with the configuration in force and its catalog. -/
def withCatalog (s : Service) (next : Configuration → Catalog → Except Escape Response) :
    Service × Except Escape Response :=
  match s.configuration with
  | .error f => (s, .error (.configuration f))
  | .ok (k, s) =>
    match s.catalog k with
    | (.error f, s) => (s, Response.refusedLoad f)
    | (.ok c, s) => (s, next k c)

/-- Goes on with the formula of a body. -/
def withFormula (d : Depths) (c : Catalog) (body? : Option Json)
    (next : Formula → Except Escape Response) : Except Escape Response :=
  match Inquiry.ofBody body? with
  | .error issues => Response.refusedInput d issues
  | .ok q =>
    match q.resolve c with
    | .error e => Response.unknownOperator e
    | .ok f => next f

/-- Answers a request that carries a formula. -/
def answerFormula (s : Service) (body : List UInt8)
    (next : Configuration → Catalog → Formula → Except Escape Response) :
    Service × Except Escape Response :=
  let d := s.site.toDepths
  match Body.ofBytes d body with
  | .malformed t position => (s, Response.notJson t position)
  | .unreadable => (s, Response.unreadableBody)
  | .empty => s.withCatalog fun k c => withFormula d c none (next k c)
  | .json v => s.withCatalog fun k c => withFormula d c (some v) (next k c)

def answerEndpoint (s : Service) (r : Request) : Endpoint → Service × Except Escape Response
  | .catalog => s.withCatalog fun _ c => Response.document c.document
  | .validate => s.answerFormula r.body fun _ c f => Response.validated c f
  | .submit => s.answerFormula r.body fun k c f => Response.submitted k r.stamp c f

/-- The response to a path that no endpoint has. -/
def page (s : Service) (r : Request) : Except Escape Response :=
  (s.site.pages r.method r.path).elim Response.notFound .ok

/-- Answers a request. -/
def answer (s : Service) (r : Request) : Service × Except Escape Response :=
  match Endpoint.ofPath? r.path with
  | none => (s, s.page r)
  | some e => if e.method = r.method then s.answerEndpoint r e else (s, Response.methodNotAllowed)

/-! ## Runs -/

/-- What can happen to a service. The files can become any others, by being written, deleted or
changed in another way. -/
inductive Step where
  | setVariables (changes : List (Text × Option Text))
  | setFiles (files : Files)
  | configure (given? : Option Json)
  | request (r : Request)

/-- What a step gives. -/
inductive Reply where
  | done
  | environmentFault (f : EnvironmentFault)
  | issues (xs : List Issue)
  | response (r : Response)
  | escape (e : Escape)

/-- Sets variables up to the first that cannot be set. -/
def setVariables (s : Service) (changes : List (Text × Option Text)) : Service × Reply :=
  let (e, fault?) := s.environment.setAll changes
  ({ s with environment := e }, fault?.elim .done .environmentFault)

/-- Overrides the configuration or takes the override back. What cannot be read is no override. -/
def configure (s : Service) : Option Json → Service × Reply
  | none => ({ s with override? := none }, .done)
  | some v =>
    match Configuration.ofJson v with
    | .ok k => ({ s with override? := some k }, .done)
    | .error xs => ({ s with override? := none }, .issues xs)

def step (s : Service) : Step → Service × Reply
  | .setVariables changes => s.setVariables changes
  | .setFiles files => ({ s with files := files }, .done)
  | .configure given? => s.configure given?
  | .request r =>
    match s.answer r with
    | (s, .ok response) => (s, .response response)
    | (s, .error e) => (s, .escape e)

/-- A run of steps with its replies. -/
def run (s : Service) : List Step → Service × List Reply
  | [] => (s, [])
  | x :: rest =>
    let (s, reply) := s.step x
    let (s, replies) := run s rest
    (s, reply :: replies)

end Service

end Formulary
