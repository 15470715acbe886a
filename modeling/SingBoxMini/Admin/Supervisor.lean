import SingBoxMini.Config
import SingBoxMini.Support.Files
import SingBoxMini.Support.Runs

/-!
# Admin — Supervisor

The loop of `admin::run`, any number of `put_config` and `reload` requests, and the blocking saves
they start (`admin.rs`, `Config::load` and `Config::save_atomic` of `config.rs`).

* A handler moves from one await point to the next.  The HTTP server may drop it at each of them:
  its lock guard goes with it, but a save it gave to `spawn_blocking` goes on.
* A save makes its file operations one by one, and each can fail with any error.  `Config::load`
  takes the contents of the file at one moment.
* The command channel holds four commands; the only command is `Reload`.

`toml` is a parameter (`Env`), and so is what the network answers (`Network`).  The runtime state
shown by `status` is left out: no decision depends on it.
-/

namespace SingBoxMini.Admin
open Bytes Text Files

/-- The crates, and how the paths are displayed. -/
structure Env where
  crates : Crates
  /-- `toml::to_string_pretty` -/
  serialize : Config → Except String String
  /-- `toml::from_str` -/
  deserialize : String → Except String Config
  path : String
  temporary : String

/-- The files of the directory that matter. -/
inductive ConfigFile where
  | config
  | temporary
deriving DecidableEq

/-! ### `Config::load` -/

/-- `Config::from_toml` -/
def fromToml (env : Env) (contents : String) : Except AnyhowError Config := do
  let config ← context "parse TOML configuration" (env.deserialize contents)
  config.validate env.crates
  pure config

/-- `Config::to_toml` -/
def toToml (env : Env) (config : Config) : Except AnyhowError String := do
  config.validate env.crates
  context "serialize TOML configuration" (env.serialize config)

/-- `fs::read_to_string`, with the error of the read, if any. -/
def readToString (files : Files ConfigFile) : Option String → Except String String
  | some error => .error error
  | none =>
    match files.read .config with
    | none => .error "No such file or directory (os error 2)"
    | some bytes =>
      match fromUtf8 bytes with
      | some contents => .ok contents
      | none => .error "stream did not contain valid UTF-8"

/-- `Config::load` -/
def load (env : Env) (files : Files ConfigFile) (readError : Option String) :
    Except AnyhowError Config := do
  let contents ← context ("read configuration " ++ env.path) (readToString files readError)
  fromToml env contents

/-! ### `Config::save_atomic` -/

/-- Where a save is: given to the blocking pool; before the temporary file is opened; writing it;
before it is renamed; and at its end. -/
inductive SavePc where
  | queued
  | opening (contents : List UInt8)
  | writing (w : Writing)
  | replacing (w : Writing)
  | done (result : Except AnyhowError Unit)
deriving DecidableEq

/-- A call of `Config::save_atomic`, with the configuration it was given. -/
structure Save where
  config : Config
  pc : SavePc
deriving DecidableEq

/-- The save has ended. -/
def SavePc.isDone : SavePc → Bool
  | .done _ => true
  | _ => false

/-- The steps; a file operation comes with the error it gives, if any. -/
inductive SaveAction where
  | start
  | openTemporary (error : Option String)
  /-- The next `n` bytes are written. -/
  | write (n : Nat)
  | writeError (error : String)
  /-- The permissions are copied, if there is a file to copy them from. -/
  | permit (error : Option String)
  | rename (error : Option String)
deriving DecidableEq

/-- A file operation gives an error, or the save goes on. -/
def Save.orFail (files : Files ConfigFile) (save : Save) (message : String)
    (error : Option String) (next : Files ConfigFile × Save) : Files ConfigFile × Save :=
  match error with
  | some error => (files, { save with pc := .done (.error [message, error]) })
  | none => next

/-- The step an action makes in a save, if it is enabled. -/
def Save.step (env : Env) (files : Files ConfigFile) (save : Save) :
    SaveAction → Option (Files ConfigFile × Save)
  | .start =>
    match save.pc with
    | .queued =>
      match toToml env save.config with
      | .ok contents => some (files, { save with pc := .opening (asBytes contents) })
      | .error error => some (files, { save with pc := .done (.error error) })
    | _ => none
  | .openTemporary error =>
    match save.pc with
    | .opening contents =>
      let opened := files.create .temporary
      some (save.orFail files ("write temporary configuration " ++ env.temporary) error
        (opened.1, { save with pc := .writing ⟨opened.2, contents, 0⟩ }))
    | _ => none
  | .write n =>
    match save.pc with
    | .writing w =>
      if 0 < n ∧ w.written + n ≤ w.contents.length then
        some (files.write w.inode w.written (w.next n),
          { save with pc := .writing { w with written := w.written + n } })
      else none
    | _ => none
  | .writeError error =>
    match save.pc with
    | .writing w =>
      if w.written < w.contents.length then
        some (save.orFail files ("write temporary configuration " ++ env.temporary) (some error)
          (files, save))
      else none
    | _ => none
  | .permit error =>
    match save.pc with
    | .writing w =>
      if w.written = w.contents.length ∧ (error = none ∨ files.read .config ≠ none) then
        some (save.orFail files ("preserve configuration permissions for " ++ env.path) error
          (files, { save with pc := .replacing w }))
      else none
    | _ => none
  | .rename error =>
    match save.pc with
    | .replacing _ =>
      some (save.orFail files ("replace configuration " ++ env.path) error
        (match files.rename .temporary .config with
          | some files => (files, { save with pc := .done (.ok ()) })
          | none => (files, { save with pc := .done (.error ["replace configuration " ++ env.path,
              "No such file or directory (os error 2)"]) })))
    | _ => none

/-! ### The supervisor -/

/-- Where the loop of `run` is: before `Config::load`; with a configuration, before the server is
spawned; in the select on the server started from a configuration; in a select without a server;
after the server was told to shut down, to go round the loop again or to return; and at its end.
The server is given the configuration with its share addresses filled in. -/
inductive Supervisor where
  | loading
  | starting (config : Config)
  | running (config : Config)
  | waiting
  | finishing (again : Bool)
  | returned
deriving DecidableEq

/-- What the loop of `run` does or waits for. -/
inductive SupervisorAction where
  | load (readError : Option String)
  | launch
  /-- `command_rx.recv()` -/
  | receive
  | serverEnds
  | finish
  /-- `ctrl_c` -/
  | interrupt
deriving DecidableEq

/-- The supervisor and the number of commands in the channel after a step. -/
def Supervisor.step (env : Env) (files : Files ConfigFile) (channel : Nat) :
    Supervisor → SupervisorAction → Option (Nat × Supervisor)
  | .loading, .load readError =>
    match Admin.load env files readError with
    | .ok config => some (channel, .starting config)
    | .error _ => some (channel, .waiting)
  | .starting config, .launch => some (channel, .running config)
  | .running _, .receive => if 0 < channel then some (channel - 1, .finishing true) else none
  | .running _, .serverEnds => some (channel, .waiting)
  | .running _, .interrupt => some (channel, .finishing false)
  | .waiting, .receive => if 0 < channel then some (channel - 1, .loading) else none
  | .waiting, .interrupt => some (channel, .returned)
  | .finishing again, .finish => some (channel, if again then .loading else .returned)
  | _, _ => none

/-- The configuration in use, once it was loaded. -/
def Supervisor.config? : Supervisor → Option Config
  | .starting config | .running config => some config
  | _ => none

/-! ### Share addresses -/

/-- What the network answers: the texts of the addresses `detect_network_addresses` finds, whether
the second is public, and whether the probes find a route. -/
structure Network where
  ipv4 : Option String
  ipv6 : Option String
  publicIpv6 : Bool
  ipv4Route : Bool
  ipv6Route : Bool
deriving DecidableEq

/-- `merge_auto_ipv4_address` -/
def mergeAutoIpv4Address (existing : String) (detected : Option String) : String :=
  if NotBlank existing then existing else detected.getD ""

/-- `merge_auto_ipv6_address` -/
def mergeAutoIpv6Address (network : Network) (existing : String) : String :=
  if NotBlank existing then existing
  else
    match network.ipv6 with
    | some address => if network.publicIpv6 then address else ""
    | none => ""

/-- `apply_auto_share_addresses` -/
def applyAutoShareAddresses (network : Network) (config : Config) : Config :=
  match config.share with
  | none => config
  | some share =>
    if network.ipv4 = none ∧ network.ipv6 = none then config
    else { config with share := some { share with
      server := mergeAutoIpv4Address share.server network.ipv4
      ipv6Server := mergeAutoIpv6Address network share.ipv6Server } }

/-! ### Handlers -/

/-- The `StatusCode`s of the errors. -/
inductive Status where
  | badRequest
  | unauthorized
  | notFound
  | conflict
  | internalServerError
deriving DecidableEq

/-- `ApiError` -/
structure ApiError where
  status : Status
  message : String
deriving DecidableEq

/-- `ApiError::bad_request`; what an error displays is its outermost text. -/
def ApiError.badRequest (error : AnyhowError) : ApiError := ⟨.badRequest, error.headD ""⟩

/-- `ApiError::internal` -/
def ApiError.internal (error : AnyhowError) : ApiError := ⟨.internalServerError, error.headD ""⟩

/-- The requests that change what the server runs with. -/
inductive AdminRequest where
  | put (config : Config)
  | reload
deriving DecidableEq

/-- The request is handled by `put_config`. -/
def AdminRequest.isPut : AdminRequest → Bool
  | .put _ => true
  | .reload => false

/-- The message of the response. -/
def AdminRequest.message : AdminRequest → String
  | .put _ => "configuration saved; proxy service is reloading"
  | .reload => "proxy service is reloading"

/-- A handler, by its position among all requests. -/
abbrev HandlerId := Nat

/-- A save, by its position among all saves. -/
abbrev SaveId := Nat

/-- The await points of the handlers: in `authorize`; waiting for the write lock, with the
configuration to be saved; waiting for the save; waiting for a place in the channel. -/
inductive HandlerPc where
  | authorizing
  | locking (config : Config)
  | saving (j : SaveId)
  | sending
  | returned (result : Except ApiError String)
  | dropped
deriving DecidableEq

/-- The future of the handler is still there. -/
def HandlerPc.inProgress : HandlerPc → Bool
  | .returned _ | .dropped => false
  | _ => true

/-- A request and where its handler is. -/
structure Handler where
  request : AdminRequest
  pc : HandlerPc
deriving DecidableEq

/-- The handler holds the write lock. -/
def Handler.holds (h : Handler) : Bool :=
  match h.pc with
  | .saving _ => true
  | .sending => h.request.isPut
  | _ => false

/-- What a handler waits for. -/
inductive HandlerAction where
  /-- `authorize` answers, and the handler goes on to its next await point. -/
  | authorize (refusal : Option ApiError) (network : Network) (readError : Option String)
  | lock
  /-- The save has ended. -/
  | resume
  | send
  /-- The HTTP server drops the handler. -/
  | drop
deriving DecidableEq

/-- The checks of `put_config` before the lock. -/
def checkPut (env : Env) (network : Network) (config : Config) : Except ApiError Config :=
  let config := applyAutoShareAddresses network config
  match config.validate env.crates with
  | .error error => .error (.badRequest error)
  | .ok () =>
    match config.outbound with
    | .ipv4Only =>
      if network.ipv4Route then .ok config
      else .error ⟨.badRequest, "IPv4-only outbound requires an available IPv4 route"⟩
    | .ipv6Only =>
      if network.ipv6Route then .ok config
      else .error ⟨.badRequest, "IPv6-only outbound requires an available IPv6 route"⟩
    | .preferIpv4 => .ok config

/-- Where a handler goes after `authorize`. -/
def admitted (env : Env) (files : Files ConfigFile) (request : AdminRequest)
    (refusal : Option ApiError) (network : Network) (readError : Option String) : HandlerPc :=
  match refusal, request with
  | some error, _ => .returned (.error error)
  | none, .put config =>
    match checkPut env network config with
    | .ok config => .locking config
    | .error error => .returned (.error error)
  | none, .reload =>
    match load env files readError with
    | .ok _ => .sending
    | .error error => .returned (.error (.badRequest error))

/-! ### The system -/

/-- `AdminState` as far as it matters here, the directory and all that is at work. -/
structure State where
  files : Files ConfigFile
  /-- The commands in the channel. -/
  channel : Nat
  lock : Option HandlerId
  supervisor : Supervisor
  handlers : List Handler
  saves : List Save

/-- Any of them goes on. -/
inductive Action where
  | request (request : AdminRequest)
  | handler (i : HandlerId) (action : HandlerAction)
  | save (j : SaveId) (action : SaveAction)
  | supervisor (action : SupervisorAction)
deriving DecidableEq

namespace State

/-- The start of `run`. -/
def start (files : Files ConfigFile) : State := ⟨files, 0, none, .loading, [], []⟩

/-- A handler moves on. -/
def toHandler (s : State) (i : HandlerId) (h : Handler) (pc : HandlerPc) : State :=
  { s with handlers := s.handlers.set i { h with pc } }

/-- A handler ends; its guard is dropped. -/
def endHandler (s : State) (i : HandlerId) (h : Handler) (pc : HandlerPc) : State :=
  { s.toHandler i h pc with lock := if h.holds then none else s.lock }

/-- The step an action makes in a handler, if it is enabled. -/
def handlerStep (env : Env) (s : State) (i : HandlerId) (h : Handler) :
    HandlerAction → Option State
  | .authorize refusal network readError =>
    if h.pc = .authorizing then
      some (s.toHandler i h (admitted env s.files h.request refusal network readError))
    else none
  | .lock =>
    match h.pc with
    | .locking config =>
      if s.lock = none then
        some { s.toHandler i h (.saving s.saves.length) with
          lock := some i, saves := s.saves ++ [⟨config, .queued⟩] }
      else none
    | _ => none
  | .resume =>
    match h.pc with
    | .saving j =>
      match s.saves[j]? with
      | some ⟨_, .done (.ok ())⟩ => some (s.toHandler i h .sending)
      | some ⟨_, .done (.error error)⟩ =>
        some (s.endHandler i h (.returned (.error (.internal error))))
      | _ => none
    | _ => none
  | .send =>
    if h.pc = .sending then
      -- the receiver is dropped when `run` returns
      if s.supervisor = .returned then
        some (s.endHandler i h (.returned (.error (.internal ["channel closed"]))))
      else if s.channel < 4 then
        some { s.endHandler i h (.returned (.ok h.request.message)) with channel := s.channel + 1 }
      else none
    else none
  | .drop => if h.pc.inProgress then some (s.endHandler i h .dropped) else none

/-- The step an action makes, if it is enabled. -/
def step (env : Env) (s : State) : Action → Option State
  | .request request => some { s with handlers := s.handlers ++ [⟨request, .authorizing⟩] }
  | .handler i action => s.handlers[i]?.bind fun h => s.handlerStep env i h action
  | .save j action => s.saves[j]?.bind fun save =>
    (save.step env s.files action).map fun (files, save) =>
      { s with files, saves := s.saves.set j save }
  | .supervisor action => (s.supervisor.step env s.files s.channel action).map
    fun (channel, supervisor) => { s with channel, supervisor }

end State

end SingBoxMini.Admin
