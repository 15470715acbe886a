import SingBoxMini.Sublink.ClashEntries

/-!
# Sublink — Parameters

What the sing-box outbound and the Clash entry of a node say of how it is connected to.

A parameter is looked up in the JSON of the one and among what the other says as YAML.
`parameters_carried_iff`: what sing-box has is in the Clash entry too if and only if the node has no
flow, no service name, no path or host for a transport other than `ws` and `http`, and no line break
in its values.
-/

namespace SingBoxMini.Sublink
open Bytes Text Yaml

/-- The parameters of a connection. -/
inductive Param where
  | server
  | port
  | method
  | uuid
  | password
  | flow
  | packetEncoding
  | serverName
  | insecure
  | obfsPassword
  | network
  | path
  | host
  | serviceName
deriving DecidableEq, Repr

/-! ### sing-box -/

/-- Where a parameter is in an outbound. -/
def singboxPath : Param → List String
  | .server => ["server"]
  | .port => ["server_port"]
  | .method => ["method"]
  | .uuid => ["uuid"]
  | .password => ["password"]
  | .flow => ["flow"]
  | .packetEncoding => ["packet_encoding"]
  | .serverName => ["tls", "server_name"]
  | .insecure => ["tls", "insecure"]
  | .obfsPassword => ["obfs", "password"]
  | .network => ["transport", "type"]
  | .path => ["transport", "path"]
  | .host => ["transport", "headers", "Host"]
  | .serviceName => ["transport", "service_name"]

/-- A flag as text. -/
def boolText (value : Bool) : List Char := if value then "true".toList else "false".toList

/-- A value as text. -/
def jsonText : Json → List Char
  | .string value => value
  | .number value => Nat.toDigits 10 value.toNat
  | .bool value => boolText value
  | _ => []

/-- The value at the end of keys. -/
def jsonAt : List String → Json → Option Json
  | [], value => some value
  | key :: keys, value => (value.get key).bind (jsonAt keys)

/-- A parameter of an outbound. -/
def singboxParam (outbound : Json) (param : Param) : Option (List Char) :=
  (jsonAt (singboxPath param) outbound).map jsonText

/-- The node has a transport of its own. -/
def HasTransport (node : Node) : Prop := node.network ≠ "tcp".toList ∧ node.kind ≠ .shadowsocks

instance (node : Node) : Decidable (HasTransport node) := inferInstanceAs (Decidable (_ ∧ _))

/-- The node is obfuscated. -/
def HasObfs (node : Node) : Prop := node.kind = .hysteria2 ∧ node.obfs = "salamander".toList

instance (node : Node) : Decidable (HasObfs node) := inferInstanceAs (Decidable (_ ∧ _))

/-- What sing-box has of a node. -/
def singboxValue (node : Node) : Param → Option (List Char)
  | .server => some node.server
  | .port => some (Nat.toDigits 10 node.port)
  | .method => if node.kind = .shadowsocks then some node.method else none
  | .uuid =>
    if node.kind = .vmess ∨ node.kind = .vless ∨ node.kind = .tuic then some node.uuid else none
  | .password => if node.kind = .vmess ∨ node.kind = .vless then none else some node.password
  | .flow => if node.kind = .vless ∧ node.flow ≠ [] then some node.flow else none
  | .packetEncoding =>
    if node.kind = .vless ∧ node.udp = true then some (packetEncodingOf node) else none
  | .serverName => if node.tls then some node.sni else none
  | .insecure => if node.tls then some (boolText node.insecure) else none
  | .obfsPassword => if HasObfs node then some node.obfsPassword else none
  | .network => if HasTransport node then some node.network else none
  | .path => if HasTransport node ∧ node.path ≠ [] then some node.path else none
  | .host => if HasTransport node ∧ node.host ≠ [] then some node.host else none
  | .serviceName =>
    if HasTransport node ∧ node.serviceName ≠ [] then some node.serviceName else none

variable {node : Node}

/-- A text, if there is one. -/
def textField (key : String) (value : Option (List Char)) : List (String × Json) :=
  value.toList.map fun value => (key, .string value)

/-- The credentials of an outbound. -/
def credentialsOf (value : Param → Option (List Char)) : List (String × Json) :=
  textField "method" (value .method) ++ textField "uuid" (value .uuid) ++
    textField "password" (value .password) ++ textField "flow" (value .flow) ++
    textField "packet_encoding" (value .packetEncoding)

/-- Its TLS settings, its obfuscation and its transport. -/
def transportOf (value : Param → Option (List Char)) : List (String × Json) :=
  ((value .serverName).toList.map fun sni => ("tls", .ofFields [("enabled", .bool true),
    ("server_name", .string sni), ("insecure", .bool (value .insecure = some "true".toList))])) ++
  ((value .obfsPassword).toList.map fun password => ("obfs", .ofFields
    [("type", text "salamander"), ("password", .string password)])) ++
  ((value .network).toList.map fun network => ("transport", .ofFields (
    [("type", .string network)] ++ textField "path" (value .path) ++
    ((value .host).toList.map fun host => ("headers", .ofFields [("Host", .string host)])) ++
    textField "service_name" (value .serviceName))))

/-- **An outbound** of a kind, with a tag, a port and the other parameters. -/
def outboundOf (kind : Kind) (name : List Char) (port : Nat) (value : Param → Option (List Char)) :
    Json :=
  .ofFields ([("type", text kind.text), ("tag", .string name)] ++
    textField "server" (value .server) ++ [("server_port", .number port)] ++
    (credentialsOf value ++ transportOf value))

theorem map_toList_ite {α β : Type} (p : Prop) [Decidable p] (a : α) (f : α → β) :
    (if p then some a else none).toList.map f = if p then [f a] else [] := by
  split_ifs <;> rfl

theorem singboxCredentials_eq (hssh : node.kind ≠ .ssh) :
    singboxCredentials node = credentialsOf (singboxValue node) := by
  simp only [singboxCredentials, credentialsOf, singboxValue]
  cases hkind : node.kind with
  | ssh => exact absurd hkind hssh
  | vless => by_cases hflow : node.flow = [] <;> cases node.udp <;> simp [hflow, textField]
  | shadowsocks | vmess | tuic | hysteria2 => simp [textField]

theorem singboxTransport_eq (node : Node) :
    singboxTransport node = transportOf (singboxValue node) := by
  have hinsecure : decide (some (boolText node.insecure) = some "true".toList) = node.insecure := by
    cases node.insecure <;> decide
  simp only [transportOf, singboxValue, textField, map_toList_ite]
  refine congrArg₂ (· ++ ·) (congrArg₂ (· ++ ·) ?_ rfl) ?_
  · by_cases h : node.tls = true
    · simp only [h, if_true, hinsecure]
    · simp only [h]
      rfl
  · by_cases h : HasTransport node
    · simp only [h, true_and, if_true, ite_not]
      exact if_pos h
    · rw [if_neg h]
      exact if_neg h

/-- An outbound is made of its kind, its tag and its parameters. -/
theorem singboxNode_eq (hssh : node.kind ≠ .ssh) :
    singboxNode node = outboundOf node.kind node.name node.port (singboxValue node) := by
  rw [singboxNode, singboxCredentials_eq hssh, singboxTransport_eq, outboundOf]
  rfl

@[simp] theorem lookup_optional {α : Type} (name key : String) (value : Option α) (f : α → Json) :
    (value.toList.map fun v => (name, f v)).reverse.lookup key =
      if key = name then value.map f else none := by
  cases value with
  | none => simp
  | some v => by_cases h : key = name <;> simp [h, List.lookup_cons, beq_eq_false_iff_ne.mpr]

/-- The parameters of an outbound that is made of them.  Those of a part that is missing are missing
too. -/
theorem singboxParam_outboundOf (kind : Kind) (name : List Char) (port : Nat)
    (value : Param → Option (List Char)) (param : Param) :
    singboxParam (outboundOf kind name port value) param =
      match param with
      | .port => some (Nat.toDigits 10 port)
      | .insecure => (value .serverName).map fun _ =>
          boolText (value .insecure = some "true".toList)
      | .path | .host | .serviceName => (value .network).bind fun _ => value param
      | _ => value param := by
  have htext : ∀ value : Option (List Char), value.map (jsonText ∘ .string) = value :=
    fun value => Option.map_id_apply
  rw [singboxParam, outboundOf, credentialsOf, transportOf]
  cases param with
  | serverName | insecure =>
      cases value .serverName <;>
        simp [singboxPath, jsonAt, textField, List.lookup_append, Json.get_ofFields,
          List.lookup_cons, jsonText]
  | obfsPassword =>
      cases value .obfsPassword <;>
        simp [singboxPath, jsonAt, textField, List.lookup_append, Json.get_ofFields,
          List.lookup_cons, jsonText]
  | network | path | host | serviceName =>
      cases value .network <;> cases value .host <;>
        simp [singboxPath, jsonAt, textField, List.lookup_append, Json.get_ofFields,
          List.lookup_cons, jsonText, Function.comp_def]
  | _ =>
      simp [singboxPath, jsonAt, textField, List.lookup_append, Json.get_ofFields,
        List.lookup_cons, jsonText, htext]

/-- **The parameters of an outbound.** -/
theorem singboxParam_singboxNode (hssh : node.kind ≠ .ssh) (param : Param) :
    singboxParam (singboxNode node) param = singboxValue node param := by
  rw [singboxNode_eq hssh, singboxParam_outboundOf]
  cases param with
  | insecure =>
      by_cases htls : node.tls = true
      · cases hinsecure : node.insecure <;> simp [singboxValue, htls, hinsecure, boolText]
      · simp [singboxValue, htls]
  | path | host | serviceName => by_cases h : HasTransport node <;> simp [singboxValue, h]
  | _ => rfl

/-! ### Clash -/

/-- Where a parameter is in an entry: how deep, and the keys it may have. -/
def clashPlace : Param → Nat × List String
  | .server => (4, ["server"])
  | .port => (4, ["port"])
  | .method => (4, ["cipher"])
  | .uuid => (4, ["uuid"])
  | .password => (4, ["password"])
  | .flow => (4, ["flow"])
  | .packetEncoding => (4, ["packet-encoding"])
  | .serverName => (4, ["servername", "sni"])
  | .insecure => (4, ["skip-cert-verify"])
  | .obfsPassword => (4, ["obfs-password"])
  | .network => (4, ["network"])
  | .path => (6, ["path"])
  | .host => (8, ["Host"])
  | .serviceName => (6, ["grpc-service-name"])

/-- The value an entry has at a place. -/
def entryValue (place : Nat × List String) : Entry → Option (List Char)
  | .field indent key value =>
    if indent = place.1 ∧ place.2.any (·.toList = key) = true then some value else none
  | _ => none

/-- A parameter that is written. -/
def written (entries : List Entry) (param : Param) : Option (List Char) :=
  entries.findSome? (entryValue (clashPlace param))

/-- A parameter of an entry.  With TLS, certificates are verified unless the entry says otherwise.
-/
def clashParam (entries : List Entry) (param : Param) : Option (List Char) :=
  if param = .insecure then
    (written entries .serverName).map fun _ => (written entries .insecure).getD "false".toList
  else written entries param

/-- The node has options for its transport in Clash. -/
def HasOptions (node : Node) : Prop :=
  HasTransport node ∧ (node.network = "ws".toList ∨ node.network = "http".toList)

instance (node : Node) : Decidable (HasOptions node) := inferInstanceAs (Decidable (_ ∧ _))

/-- What Clash has of a node. -/
def clashValue (node : Node) : Param → Option (List Char)
  | .server => some (oneLine node.server)
  | .port => some (Nat.toDigits 10 node.port)
  | .method => if node.kind = .shadowsocks then some (oneLine node.method) else none
  | .uuid =>
    if node.kind = .vmess ∨ node.kind = .vless ∨ node.kind = .tuic then some (oneLine node.uuid)
    else none
  | .password =>
    if node.kind = .vmess ∨ node.kind = .vless then none else some (oneLine node.password)
  | .flow => none
  | .packetEncoding =>
    if node.kind = .vless ∧ node.udp = true then some (oneLine (packetEncodingOf node)) else none
  | .serverName => if node.tls then some (oneLine node.sni) else none
  | .insecure => if node.tls then some (boolText node.insecure) else none
  | .obfsPassword => if HasObfs node then some (oneLine node.obfsPassword) else none
  | .network => if HasTransport node then some (oneLine node.network) else none
  | .path => if HasOptions node ∧ node.path ≠ [] then some (oneLine node.path) else none
  | .host => if HasOptions node ∧ node.host ≠ [] then some (oneLine node.host) else none
  | .serviceName => none

theorem written_append (es es' : List Entry) :
    written (es ++ es') = fun param => (written es param).or (written es' param) :=
  funext fun _ => List.findSome?_append

/-- The values at the start of an entry. -/
def startValue (node : Node) : Param → Option (List Char)
  | .server => clashValue node .server
  | .port => clashValue node .port
  | _ => none

theorem written_start (node : Node) : written (startEntries node) = startValue node := by
  funext param
  cases param <;> rfl

/-- The credentials of a node. -/
def credentialValue (node : Node) : Param → Option (List Char)
  | .method => clashValue node .method
  | .uuid => clashValue node .uuid
  | .password => clashValue node .password
  | .packetEncoding => clashValue node .packetEncoding
  | _ => none

/-- The TLS settings. -/
def tlsValue (node : Node) : Param → Option (List Char)
  | .serverName => if node.tls then some (oneLine node.sni) else none
  | .insecure => if node.tls ∧ node.insecure then some "true".toList else none
  | _ => none

theorem written_tls (node : Node) : written (tlsEntries node) = tlsValue node := by
  funext param
  rw [tlsEntries]
  by_cases htls : node.tls = true
  · by_cases hinsecure : node.insecure = true
    · rw [if_pos htls, if_pos hinsecure]
      split_ifs <;> cases param <;> simp [tlsValue, htls, hinsecure] <;> rfl
    · rw [if_pos htls, if_neg hinsecure]
      split_ifs <;> cases param <;> simp [tlsValue, htls, hinsecure] <;> rfl
  · rw [if_neg htls]
    cases param <;> simp [tlsValue, htls] <;> rfl

theorem written_obfs (node : Node) :
    written (obfsEntries node) = fun param =>
      if param = .obfsPassword ∧ HasObfs node then some (oneLine node.obfsPassword) else none := by
  funext param
  rw [obfsEntries]
  by_cases hobfs : node.kind = .hysteria2 ∧ node.obfs = "salamander".toList
  · have hhas : HasObfs node := hobfs
    rw [if_pos hobfs]
    cases param <;> simp [hhas] <;> rfl
  · have hhas : ¬ HasObfs node := hobfs
    rw [if_neg hobfs]
    simp [hhas, written]

/-- The transport. -/
def transportValue (node : Node) : Param → Option (List Char)
  | .network => clashValue node .network
  | .path => clashValue node .path
  | .host => clashValue node .host
  | _ => none

theorem written_network (node : Node) : written (networkEntries node) = transportValue node := by
  funext param
  rw [networkEntries]
  by_cases hcond : node.network ≠ "tcp".toList ∧ node.kind ≠ .shadowsocks
  · have htransport : HasTransport node := hcond
    rw [if_pos hcond]
    by_cases hoptions : node.network = "ws".toList ∨ node.network = "http".toList
    · have hhas : HasOptions node := ⟨htransport, hoptions⟩
      rw [if_pos hoptions]
      split_ifs with hpath hhost hhost <;>
        cases param <;> simp [transportValue, clashValue, *] <;> rfl
    · have hhas : ¬ HasOptions node := fun h => hoptions h.2
      rw [if_neg hoptions]
      cases param <;> simp [transportValue, clashValue, htransport, hhas] <;> rfl
  · have htransport : ¬ HasTransport node := hcond
    have hhas : ¬ HasOptions node := fun h => htransport h.1
    rw [if_neg hcond]
    cases param <;> simp [transportValue, clashValue, htransport, hhas] <;> rfl

/-- What is written, part by part. -/
theorem written_clashEntries (hssh : node.kind ≠ .ssh) (param : Param) :
    written (clashEntries node) param =
      ((((startValue node param).or (credentialValue node param)).or (tlsValue node param)).or
        (if param = .obfsPassword ∧ HasObfs node then some (oneLine node.obfsPassword)
          else none)).or (transportValue node param) := by
  rw [clashEntries, written_append, written_append, written_append, written_append, written_start,
    written_tls, written_obfs, written_network]
  refine congrArg (fun value => ((((startValue node param).or value).or (tlsValue node param)).or
    _).or (transportValue node param)) ?_
  cases hkind : node.kind with
  | ssh => exact absurd hkind hssh
  | vless =>
      cases hudp : node.udp <;> cases param <;>
        simp [credentialValue, clashValue, hkind, hudp] <;> rfl
  | shadowsocks | vmess | tuic | hysteria2 =>
      cases param <;> simp [credentialValue, clashValue, hkind] <;> rfl

/-- **The parameters of an entry.** -/
theorem clashParam_clashEntries (hssh : node.kind ≠ .ssh) (param : Param) :
    clashParam (clashEntries node) param = clashValue node param := by
  rw [clashParam, written_clashEntries hssh, written_clashEntries hssh, written_clashEntries hssh]
  cases param with
  | insecure =>
      cases htls : node.tls <;> cases hinsecure : node.insecure <;>
        simp [startValue, credentialValue, tlsValue, transportValue, clashValue, htls, hinsecure,
          boolText]
  | _ => simp [startValue, credentialValue, tlsValue, transportValue, clashValue]

/-! ### What is lost -/

/-- A parameter that Clash does not get. -/
def Lost (node : Node) : Param → Prop
  | .flow | .serviceName => True
  | .path | .host => ¬ HasOptions node
  | _ => False

theorem single_digits (n : Nat) : Single (Nat.toDigits 10 n) :=
  ⟨Url.not_mem_digits (by decide) n, Url.not_mem_digits (by decide) n⟩

theorem single_boolText (value : Bool) : Single (boolText value) := by
  cases value <;> decide

variable {param : Param}

/-- Clash gets what is not lost, on one line. -/
theorem clashValue_of_not_lost (h : ¬ Lost node param) :
    clashValue node param = (singboxValue node param).map oneLine := by
  cases param with
  | flow | serviceName => exact absurd trivial h
  | path | host =>
      have hoptions : HasOptions node := not_not.mp h
      simp only [clashValue, singboxValue, hoptions, hoptions.1, true_and]
      split_ifs <;> rfl
  | server => rfl
  | port =>
      simp only [clashValue, singboxValue, Option.map_some, oneLine_of_single (single_digits _)]
  | insecure =>
      simp only [clashValue, singboxValue]
      split_ifs
      · rw [Option.map_some, oneLine_of_single (single_boolText _)]
      · rfl
  | method | uuid | password | packetEncoding | serverName | obfsPassword | network =>
      simp only [clashValue, singboxValue]
      split_ifs <;> rfl

theorem clashValue_of_lost (h : Lost node param) :
    clashValue node param = none := by
  cases param with
  | flow | serviceName => rfl
  | path | host => exact if_neg fun hboth => h hboth.1
  | server | port | insecure | method | uuid | password | packetEncoding | serverName |
    obfsPassword | network => exact absurd h id

/-- **A node of which nothing is lost**: no flow, no service name, no path or host that Clash has no
options for, and no line break in what sing-box has of it. -/
structure Plain (node : Node) : Prop where
  flow : node.kind = .vless → node.flow = []
  serviceName : HasTransport node → node.serviceName = []
  options : HasTransport node → ¬ HasOptions node → node.path = [] ∧ node.host = []
  lines : ∀ param value, singboxValue node param = some value → Single value

theorem Plain.eq_none_of_lost (h : Plain node) (hlost : Lost node param) :
    singboxValue node param = none := by
  cases param with
  | flow => exact if_neg fun hflow => hflow.2 (h.flow hflow.1)
  | serviceName => exact if_neg fun hservice => hservice.2 (h.serviceName hservice.1)
  | path => exact if_neg fun hpath => hpath.2 (h.options hpath.1 hlost).1
  | host => exact if_neg fun hhost => hhost.2 (h.options hhost.1 hlost).2
  | server | port | insecure | method | uuid | password | packetEncoding | serverName |
    obfsPassword | network => exact absurd hlost id

/-- Clash then has what sing-box has. -/
theorem Plain.clashValue_eq (h : Plain node) : clashValue node = singboxValue node := by
  funext param
  by_cases hlost : Lost node param
  · rw [clashValue_of_lost hlost, h.eq_none_of_lost hlost]
  · rw [clashValue_of_not_lost hlost]
    cases hvalue : singboxValue node param with
    | none => rfl
    | some value => rw [Option.map_some, oneLine_of_single (h.lines param value hvalue)]

/-- If Clash has what sing-box has, nothing was lost. -/
theorem plain_of_clashValue
    (h : ∀ param value, singboxValue node param = some value → clashValue node param = some value) :
    Plain node := by
  have hlost : ∀ param, Lost node param → singboxValue node param = none := by
    intro param hparam
    cases hvalue : singboxValue node param with
    | none => rfl
    | some value =>
        have hclash := h param value hvalue
        rw [clashValue_of_lost hparam] at hclash
        cases hclash
  have hnil : ∀ {p : Prop} [Decidable p] {s : List Char},
      (if p ∧ s ≠ [] then some s else none) = none → p → s = [] := by
    intro p _ s hnone hp
    by_contra hne
    rw [if_pos ⟨hp, hne⟩] at hnone
    cases hnone
  refine ⟨hnil (hlost .flow trivial), hnil (hlost .serviceName trivial),
    fun htransport hoptions => ⟨hnil (hlost .path hoptions) htransport,
      hnil (hlost .host hoptions) htransport⟩, ?_⟩
  intro param value hvalue
  have hclash := h param value hvalue
  have hnot : ¬ Lost node param := fun hparam => by
    rw [hlost param hparam] at hvalue
    cases hvalue
  rw [clashValue_of_not_lost hnot, hvalue] at hclash
  exact oneLine_eq_self_iff.mp (Option.some.inj hclash)

/-! ### Both formats -/

/-- **What sing-box has of a node is in its Clash entry.** -/
def Carried (node : Node) : Prop :=
  ∃ entries, read (unlines (clashProxy node)) = some entries ∧
    ∀ param value, singboxParam (singboxNode node) param = some value →
      clashParam entries param = some value

theorem read_clashProxy (hssh : node.kind ≠ .ssh) :
    read (unlines (clashProxy node)) = some (clashEntries node) :=
  (says_clashProxy fun hkind => absurd hkind hssh).read_unlines

theorem carried_iff (hssh : node.kind ≠ .ssh) : Carried node ↔ Plain node := by
  constructor
  · rintro ⟨entries, hread, hparams⟩
    rw [read_clashProxy hssh] at hread
    cases hread
    refine plain_of_clashValue fun param value hvalue => ?_
    rw [← clashParam_clashEntries hssh]
    exact hparams param value (by rwa [singboxParam_singboxNode hssh])
  · intro h
    refine ⟨clashEntries node, read_clashProxy hssh, fun param value hvalue => ?_⟩
    rwa [clashParam_clashEntries hssh, h.clashValue_eq, ← singboxParam_singboxNode hssh]

theorem kind_of_short {kind kind' : Kind}
    (h : oneLine kind.short.toList = oneLine kind'.short.toList) : kind = kind' := by
  revert h
  cases kind <;> cases kind' <;> decide

/-- **One entry, one outbound**, but for its tag. -/
theorem singboxNode_of_clashProxy {other : Node} (hssh : node.kind ≠ .ssh)
    (hssh' : other.kind ≠ .ssh) (h : Plain node) (h' : Plain other)
    (heq : clashProxy node = clashProxy other) :
    singboxNode node = singboxNode { other with name := node.name } := by
  have hentries : clashEntries node = clashEntries other := by
    have hread := read_clashProxy hssh
    rw [heq, read_clashProxy hssh'] at hread
    exact (Option.some.inj hread).symm
  have hkind : node.kind = other.kind := by
    have htype : some (quoted "type" node.kind.short.toList) =
        some (quoted "type" other.kind.short.toList) := congrArg (fun es => es[2]?) hentries
    rw [Option.some.injEq, quoted, quoted, Entry.field.injEq] at htype
    exact kind_of_short htype.2.2
  have hvalues : singboxValue node = singboxValue other := by
    rw [← h.clashValue_eq, ← h'.clashValue_eq]
    funext param
    rw [← clashParam_clashEntries hssh, ← clashParam_clashEntries hssh', hentries]
  have hport : node.port = other.port := by
    have hdigits : Nat.toDigits 10 node.port = Nat.toDigits 10 other.port :=
      Option.some.inj (congrFun hvalues .port)
    have hnode : Nat.ofDigitChars 10 (Nat.toDigits 10 node.port) 0 = node.port :=
      Nat.ofDigitChars_ten_toDigits
    rw [← hnode, hdigits, Nat.ofDigitChars_ten_toDigits]
  have hother : singboxValue { other with name := node.name } = singboxValue other := by
    funext param
    cases param <;> rfl
  have houtbound : singboxNode { other with name := node.name } =
      outboundOf other.kind node.name other.port (singboxValue { other with name := node.name }) :=
    singboxNode_eq hssh'
  rw [singboxNode_eq hssh, houtbound, hother, hkind, hvalues, hport]

/-- **When Clash gets the parameters that sing-box gets**: when nothing of a node is lost.  Then
nodes with one Clash entry have one sing-box outbound. -/
theorem parameters_carried_iff (nodes : List Node) :
    ((∀ node ∈ nodes, node.kind ≠ .ssh → Carried node) ↔
      ∀ node ∈ nodes, node.kind ≠ .ssh → Plain node) ∧
    ((∀ node ∈ nodes, node.kind ≠ .ssh → Plain node) →
      ∀ node ∈ nodes, ∀ other ∈ nodes, node.kind ≠ .ssh → other.kind ≠ .ssh →
        clashProxy node = clashProxy other →
          singboxNode node = singboxNode { other with name := node.name }) := by
  constructor
  · exact forall₂_congr fun node _ => forall_congr' carried_iff
  · intro h node hnode other hother hssh hssh' heq
    exact singboxNode_of_clashProxy hssh hssh' (h node hnode hssh) (h other hother hssh') heq

/-- A VLESS URI with a query. -/
def queryUrl (query : Option (List Char)) : Url :=
  ⟨"vless".toList, "u".toList, none, some "h".toList, some 1, [], query, none⟩

/-- One with a flow. -/
def flowUrl : Url := queryUrl (some "flow=x".toList)

/-- Its node. -/
def flowNode : Node := urlNode .vless flowUrl.toString flowUrl "h".toList

/-- The node without a query. -/
def plainNode : Node := urlNode .vless (queryUrl none).toString (queryUrl none) "h".toList

/-- **The flow is lost**: two nodes that differ in it have one Clash entry. -/
theorem parameters_flow :
    parseInput urlCodec (['\n'].intercalate [flowUrl.toString, (queryUrl none).toString]) =
        .ok [flowNode, plainNode] ∧
      ¬ Carried flowNode ∧ clashProxy flowNode = clashProxy plainNode ∧
      singboxNode flowNode ≠ singboxNode plainNode := by
  have hflow : parseNode urlCodec flowUrl.toString = .ok flowNode :=
    parseNode_urlNode (by decide) (by decide) rfl (by decide)
  have hplain : parseNode urlCodec (queryUrl none).toString = .ok plainNode :=
    parseNode_urlNode (by decide) (by decide) rfl (by decide)
  have hlines : ∀ line ∈ [flowUrl.toString, (queryUrl none).toString], UriLine line := by
    rw [List.forall_mem_cons, List.forall_mem_singleton]
    exact ⟨uriLine_of_clean (by decide) (by decide), uriLine_of_clean (by decide) (by decide)⟩
  have hvalue : flowNode.flow = "x".toList := by decide
  refine ⟨?_, fun hcarried => ?_, by decide, fun heq => ?_⟩
  · exact (parseInput_intercalate_iff hlines (List.cons_ne_nil _ _) (by decide)).mpr
      ⟨by decide, .cons hflow (.cons hplain .nil)⟩
  · have hnone := ((carried_iff (by decide)).mp hcarried).flow rfl
    rw [hvalue] at hnone
    cases hnone
  · have hparam : singboxValue flowNode .flow = singboxValue plainNode .flow := by
      rw [← singboxParam_singboxNode (by decide), heq, singboxParam_singboxNode (by decide)]
    revert hparam
    decide

end SingBoxMini.Sublink
