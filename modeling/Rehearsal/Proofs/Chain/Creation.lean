import Rehearsal.Chain.Simulation
import Rehearsal.Proofs.Chain.Exchange
import Rehearsal.Proofs.Json.RoundTrip
import Rehearsal.Proofs.Text.Utf8

namespace Rehearsal

/-! Deployments that are refused for their arguments, before a contract is built or a transaction is
sent. A simulated chain and a node refuse the same arguments of a constructor that is declared. For
one that is not, the node takes no arguments and the simulated chain takes any. -/

/-- The declared constructor does not take the arguments. -/
def Interface.RefusesArguments (interface : Interface) (args : List Json) (e : ChainError) : Prop :=
  ∃ constructor, interface.constructor? = some constructor ∧
    (constructor.encodeArguments args).onChain = .error e

variable {κ : Type} {name : String} {args : List Json} {options : CallOptions} {e : ChainError}

namespace Simulation

variable {s : Simulation κ} {ledger : Ledger κ}

/-- A deployment fails, and no invocation has been recorded. -/
def Refuses (s : Simulation κ) (name : String) (args : List Json) (options : CallOptions)
    (ledger : Ledger κ) (e : ChainError) : Prop :=
  (s.deploy name args options ledger).1 = .error e ∧
    (s.deploy name args options ledger).2.invocations = ledger.invocations

theorem invocations_record_ne (ledger : Ledger κ) (invocation : Invocation) :
    (ledger.record invocation).invocations ≠ ledger.invocations := by
  intro same
  have longer := congrArg List.length same
  simp [Ledger.record] at longer

theorem refuses_iff_prepare :
    s.Refuses name args options ledger e ↔ s.prepare name args = .error e := by
  unfold Refuses deploy
  cases prepared : s.prepare name args with
  | error other => simp
  | ok artifact =>
      cases built : artifact.build args options.sender with
      | error reason => simp [built, invocations_record_ne]
      | ok contract => simp [built]

theorem checkArguments_eq_error_iff {artifact : Artifact κ} :
    checkArguments artifact args = .error e ↔ artifact.interface.RefusesArguments args e := by
  unfold checkArguments Interface.RefusesArguments
  cases artifact.interface.constructor? with
  | none => simp
  | some constructor => simp [map_eq_error]

theorem prepare_eq_error_iff {artifact : Artifact κ} (reachable : name ∉ s.unreachable)
    (registered : Json.Mapping.get? name s.artifacts = some artifact) :
    s.prepare name args = .error e ↔ artifact.interface.RefusesArguments args e := by
  have reached : s.reach name = .ok () := by simp [reach, reachable]
  rw [prepare, reached, registered, ok_bind]
  change (checkArguments artifact args >>= fun _ => pure artifact) = _ ↔ _
  rw [bind_pure_comp, map_eq_error, checkArguments_eq_error_iff]

end Simulation

namespace Node

variable {node : Node (StateM (List Exchange))} {replies : Nat → Except TransportFault String}
  {id : Nat} {exchanges : List Exchange}

/-- A deployment fails, and the node has been asked nothing. -/
def Refuses (node : Node (StateM (List Exchange))) (name : String) (args : List Json)
    (options : CallOptions) (id : Nat) (exchanges : List Exchange) (e : ChainError) : Prop :=
  let ran := ((node.deploy name args options).run id).run exchanges
  ran.1.1 = .error e ∧ ran.2 = exchanges

theorem Transacts.ne_nil {transaction : Json} {answer : Except ChainError Receipt}
    (transacts : Transacts transaction id exchanges answer) : exchanges ≠ [] := by
  cases transacts with
  | refused asks carries => exact List.cons_ne_nil _ _
  | unexpected asks carries noHash => exact List.cons_ne_nil _ _
  | submitted asks carries awaits => exact List.cons_ne_nil _ _

theorem refuses_iff_creation (replying : node.link = .replying replies) :
    node.Refuses name args options id exchanges e ↔
      creation node.store name args = .error e := by
  unfold Refuses deploy
  cases created : creation node.store name args with
  | error other =>
      change (Except.error other = _ ∧ exchanges = exchanges) ↔ _
      simp
  | ok made =>
      obtain ⟨sent, ran, transacts⟩ :=
        transacts_of_run replying (transaction options none made.2) id exchanges
      constructor
      · rintro ⟨-, silent⟩
        change (((node.transact (transaction options none made.2)).run id).run exchanges).2 = _
          at silent
        rw [ran] at silent
        exact absurd (List.append_right_eq_self.mp silent) transacts.ne_nil
      · intro failed
        contradiction

theorem creation_eq_error_iff {store : Store} {artifact : Artifact} {code : List UInt8}
    (stored : store.artifact name = .ok artifact) (some : artifact.bytecode.isEmpty = false)
    (valid : artifact.bytecode.octets = .ok code) :
    creation store name args = .error e ↔ artifact.interface.RefusesArguments args e ∨
      artifact.interface.constructor? = none ∧ args ≠ [] ∧
        e = .abi (.noConstructor name args.length) := by
  have code : artifact.bytecode.octets.onChain = .ok code := by rw [valid]; rfl
  unfold creation Interface.RefusesArguments
  rw [stored, ok_bind, some, if_neg Bool.false_ne_true, code, ok_bind]
  cases artifact.interface.constructor? with
  | none =>
      cases args with
      | nil => simp [pure, Except.pure]
      | cons arg args => simp [eq_comm]
  | some constructor => simp [map_eq_error]

end Node

/-- An artifact with an interface that can be deployed on a simulated chain as well as by a node. -/
structure Offered (s : Simulation κ) (store : Store) (name : String) (interface : Interface) :
    Prop where
  reachable : name ∉ s.unreachable
  registered : ∃ artifact, Json.Mapping.get? name s.artifacts = some artifact ∧
    artifact.interface = interface
  stored : ∃ artifact code, store.artifact name = .ok artifact ∧ artifact.interface = interface ∧
    artifact.bytecode.isEmpty = false ∧ artifact.bytecode.octets = .ok code

namespace Offered

variable {s : Simulation κ} {ledger : Simulation.Ledger κ} {node : Node (StateM (List Exchange))}
  {replies : Nat → Except TransportFault String} {id : Nat} {exchanges : List Exchange}
  {interface : Interface}

theorem simulation_refuses_iff (offered : Offered s node.store name interface) :
    s.Refuses name args options ledger e ↔ interface.RefusesArguments args e := by
  obtain ⟨artifact, registered, rfl⟩ := offered.registered
  rw [Simulation.refuses_iff_prepare,
    Simulation.prepare_eq_error_iff offered.reachable registered]

theorem node_refuses_iff (offered : Offered s node.store name interface)
    (replying : node.link = .replying replies) :
    node.Refuses name args options id exchanges e ↔ interface.RefusesArguments args e ∨
      interface.constructor? = none ∧ args ≠ [] ∧ e = .abi (.noConstructor name args.length) := by
  obtain ⟨artifact, code, stored, rfl, some, valid⟩ := offered.stored
  rw [Node.refuses_iff_creation replying, Node.creation_eq_error_iff stored some valid]

/-- A node refuses what the simulated chain refuses, with the same errors, and nothing else but
arguments where no constructor is declared. So both refuse the same arguments of an interface as
faulty, unless there are arguments and no constructor. -/
theorem refuses_alike_iff (offered : Offered s node.store name interface)
    (replying : node.link = .replying replies) (args : List Json) (options : CallOptions)
    (ledger : Simulation.Ledger κ) (id : Nat) (exchanges : List Exchange) :
    (∀ e, node.Refuses name args options id exchanges e ↔ s.Refuses name args options ledger e ∨
      interface.constructor? = none ∧ args ≠ [] ∧ e = .abi (.noConstructor name args.length)) ∧
    (((∃ fault, s.Refuses name args options ledger (.abi fault)) ↔
        ∃ fault, node.Refuses name args options id exchanges (.abi fault)) ↔
      (interface.constructor? = none → args = [])) := by
  constructor
  · intro e
    rw [offered.simulation_refuses_iff, offered.node_refuses_iff replying]
  · simp only [offered.simulation_refuses_iff, offered.node_refuses_iff replying]
    constructor
    · intro alike absent
      cases args with
      | nil => rfl
      | cons arg args =>
          obtain ⟨fault, constructor, declared, -⟩ :=
            alike.mpr ⟨_, .inr ⟨absent, List.cons_ne_nil _ _, rfl⟩⟩
          rw [absent] at declared
          contradiction
    · intro plain
      constructor
      · rintro ⟨fault, refused⟩
        exact ⟨fault, .inl refused⟩
      · rintro ⟨fault, refused | ⟨absent, some, -⟩⟩
        · exact ⟨fault, refused⟩
        · exact absurd (plain absent) some

end Offered

/-! A box, whose artifact stands in a file of its own. -/

namespace Box

def simulation (interface : Interface) : Simulation Unit where
  accounts := 1
  artifacts := [("Box", ⟨interface, fun _ _ => .ok ()⟩)]
  answer _ _ := (.error "closed", ())
  unreachable := []
  revertedLate := []

def silence : Nat → Except TransportFault String := fun _ => .error .undecodable

def node (artifact : Json) : Node (StateM (List Exchange)) where
  link := .replying silence
  store := ⟨⟨.directory [("Box.json", .file (Utf8.encodeString artifact.pretty))], []⟩, ".", "."⟩
  receiptSeconds := 1
  pollMilliseconds := 1

def artifact (entries : List Json) : Json :=
  .object [("contractName", .string "Box"), ("abi", .array entries), ("bytecode", .string "0x00")]

theorem artifact_node {value : Json} {artifact : Artifact} (legible : value.Legible)
    (shallow : value.depth ≤ Json.depthLimit) (read : Artifact.read value = .ok artifact)
    (named : artifact.name = "Box") : (node value).store.artifact "Box" = .ok artifact := by
  have found : (node value).store.artifactPath? "Box" = some "./Box.json" := by
    have here : (node value).store.artifacts = "." := rfl
    have directory : (node value).store.tree.find "." = .ok (node value).store.tree.root := by rfl
    have file : "Box" ++ ".json" = "Box.json" := by rfl
    rw [Store.artifactPath?, here, directory, file]
    have inside : Store.fileIn "Box.json" "." [("Box.json",
        .file (Utf8.encodeString value.pretty))] = some "./Box.json" := by rfl
    change Store.search "Box.json" [⟨".", _⟩] = _
    rw [Store.search, inside]
  have text : (node value).store.tree.readText "./Box.json" = .ok value.pretty := by
    have content : (node value).store.tree.find "./Box.json" =
      .ok (.file (Utf8.encodeString value.pretty)) := by rfl
    rw [Files.Tree.readText, content, ok_bind]
    simp only [Utf8.decodeString_encodeString]
    rfl
  have parsed : Json.parse value.pretty = some value := by
    rw [Json.parse_pretty legible, if_pos shallow]
  rw [Store.artifact, found]
  simp only [Store.readJson, text, parsed, read]
  rw [Except.mapError, ok_bind, named]
  rfl

theorem offered {entries : List Json} {interface : Interface}
    (legible : (artifact entries).Legible) (shallow : (artifact entries).depth ≤ Json.depthLimit)
    (read : Artifact.read (artifact entries) = .ok ⟨"Box", interface, .plain "0x00"⟩) :
    Offered (simulation interface) (node (artifact entries)).store "Box" interface where
  reachable := List.not_mem_nil
  registered := ⟨_, rfl, rfl⟩
  stored := by
    have some : Bytecode.isEmpty (.plain "0x00") = false := by rfl
    have valid : Bytecode.octets (.plain "0x00") = .ok [0] := by rfl
    exact ⟨_, [0], artifact_node legible shallow read rfl, rfl, some, valid⟩

def plain : Json := artifact []

theorem offered_plain : Offered (simulation ⟨[]⟩) (node plain).store "Box" ⟨[]⟩ :=
  offered (by simp [artifact]) (by decide) rfl

def numbered : Json :=
  artifact [.object [("type", .string "constructor"),
    ("inputs", .array [.object [("name", .string "number"), ("type", .string "uint")]])]]

def numberedInterface : Interface :=
  ⟨[.constructor ⟨[⟨"number", "uint", [], false⟩], .nonpayable⟩]⟩

end Box

theorem Offered.refuses_alike_of_numbered :
    Offered (Box.simulation Box.numberedInterface) (Box.node Box.numbered).store "Box"
        Box.numberedInterface ∧
      ∃ fault, (Box.node Box.numbered).Refuses "Box" [] ⟨.zero, none⟩ 1 [] (.abi fault) := by
  have offered : Offered (Box.simulation Box.numberedInterface) (Box.node Box.numbered).store "Box"
      Box.numberedInterface := Box.offered (by simp [Box.artifact]) (by decide) rfl
  have replying : (Box.node Box.numbered).link = .replying Box.silence := rfl
  obtain ⟨-, alike⟩ := refuses_alike_iff offered replying [] ⟨.zero, none⟩ .empty 1 []
  exact ⟨offered, (alike.mpr fun _ => rfl).mp ⟨.argumentCount 1 0, rfl, rfl⟩⟩

theorem Offered.not_refused_alike_of_plain :
    Offered (Box.simulation ⟨[]⟩) (Box.node Box.plain).store "Box" ⟨[]⟩ ∧
      ¬((∃ fault, (Box.simulation ⟨[]⟩).Refuses "Box" [.ofNat 1] ⟨.zero, none⟩ .empty
            (.abi fault)) ↔
          ∃ fault, (Box.node Box.plain).Refuses "Box" [.ofNat 1] ⟨.zero, none⟩ 1 []
            (.abi fault)) := by
  refine ⟨Box.offered_plain, fun alike => ?_⟩
  have replying : (Box.node Box.plain).link = .replying Box.silence := rfl
  have refused : (Box.node Box.plain).Refuses "Box" [.ofNat 1] ⟨.zero, none⟩ 1 []
      (.abi (.noConstructor "Box" 1)) :=
    (Box.offered_plain.node_refuses_iff replying).mpr (.inr ⟨rfl, List.cons_ne_nil _ _, rfl⟩)
  obtain ⟨fault, failed, -⟩ := alike.mpr ⟨_, refused⟩
  contradiction

end Rehearsal
