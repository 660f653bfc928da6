import Rehearsal.Proofs.Chain.Creation
import Rehearsal.Proofs.Chain.Submission
import Rehearsal.Proofs.Scenario.Meaning
import Rehearsal.Proofs.Text.Search

namespace Rehearsal

/-! Deployments without code. The guard against them takes the marks in front off the code as it
stands; what reads the code takes the blanks around it off before that. So the two differ on marks
with blanks around them, and a transaction without code goes out for these and for nothing else. -/

namespace Text

theorem dropHexMarks_trim_eq_nil_iff {s : String} :
    dropHexMarks (trim s.toList) = [] ↔ ∃ count, Padded (hexMarks count) s := by
  rw [dropHexMarks_eq_nil_iff]
  constructor
  · rintro ⟨count, same⟩
    exact ⟨count, same ▸ padded_trim s⟩
  · rintro ⟨count, padded⟩
    exact ⟨count, padded.trim_eq (ink_hexMarks count)⟩

end Text

namespace Bytecode

variable {b : Bytecode}

theorem isEmpty_iff : b.isEmpty = true ↔ ∃ count, b.text.toList = Text.hexMarks count := by
  rw [isEmpty, List.isEmpty_iff, Text.dropHexMarks_eq_nil_iff]

theorem octets_eq_nil_iff :
    b.octets = .ok [] ↔ ∃ count, Text.Padded (Text.hexMarks count) b.text := by
  rw [octets, Except.mapError_eq_ok, Hex.decode_eq_ok_nil_iff, Text.dropHexMarks_trim_eq_nil_iff]

/-- There are only marks in the text, with blanks around them. -/
structure Hollow (b : Bytecode) : Prop where
  padded : ∃ count, Text.Padded (Text.hexMarks count) b.text
  blank : ∃ c ∈ b.text.toList, Text.isBlank c = true

theorem octets_of_isEmpty (empty : b.isEmpty = true) : b.octets = .ok [] := by
  obtain ⟨count, text⟩ := isEmpty_iff.mp empty
  refine octets_eq_nil_iff.mpr ⟨count, [], [], ?_, nofun, nofun⟩
  rw [text, List.nil_append, List.append_nil]

theorem not_hollow_of_isEmpty (empty : b.isEmpty = true) : ¬b.Hollow := by
  rintro ⟨-, c, member, blank⟩
  obtain ⟨count, text⟩ := isEmpty_iff.mp empty
  rw [text] at member
  rw [Text.ink_hexMarks count c member] at blank
  contradiction

theorem hollow_iff : b.Hollow ↔ b.isEmpty = false ∧ b.octets = .ok [] := by
  constructor
  · intro hollow
    refine ⟨?_, octets_eq_nil_iff.mpr hollow.padded⟩
    cases empty : b.isEmpty with
    | false => rfl
    | true => exact absurd hollow (not_hollow_of_isEmpty empty)
  · rintro ⟨some, none⟩
    obtain ⟨count, front, back, text, before, behind⟩ := octets_eq_nil_iff.mp none
    refine ⟨⟨count, front, back, text, before, behind⟩, ?_⟩
    match front, back with
    | c :: front, back => exact ⟨c, by simp [text], before c List.mem_cons_self⟩
    | [], c :: back => exact ⟨c, by simp [text], behind c List.mem_cons_self⟩
    | [], [] =>
        have empty : b.isEmpty = true := isEmpty_iff.mpr ⟨count, by simpa using text⟩
        rw [empty] at some
        contradiction

theorem guarded_iff_not_hollow : (b.isEmpty = true ↔ b.octets = .ok []) ↔ ¬b.Hollow := by
  rw [hollow_iff]
  cases empty : b.isEmpty with
  | true => simp [octets_of_isEmpty empty]
  | false => simp

end Bytecode

/-- What a creation has behind its code: the arguments of the constructor, and nothing where none is
declared. -/
def Interface.Encodes (interface : Interface) (args : List Json) (encoded : List UInt8) : Prop :=
  match interface.constructor? with
  | some constructor => constructor.encodeArguments args = .ok encoded
  | none => args = [] ∧ encoded = []

theorem Interface.Encodes.unique {interface : Interface} {args : List Json}
    {encoded other : List UInt8} (encodes : interface.Encodes args encoded)
    (others : interface.Encodes args other) : encoded = other := by
  unfold Encodes at encodes others
  cases declared : interface.constructor? with
  | some constructor =>
      rw [declared] at encodes others
      exact Except.ok.inj (encodes.symm.trans others)
  | none =>
      rw [declared] at encodes others
      rw [encodes.2, others.2]

namespace Node

variable {node : Node (StateM (List Exchange))} {replies : Nat → Except TransportFault String}
  {name : String} {args : List Json} {options : CallOptions} {id : Nat}
  {exchanges : List Exchange}

theorem read_of_creation {store : Store} {made : Artifact × List UInt8}
    (created : creation store name args = .ok made) :
    ∃ artifact code, store.artifact name = .ok artifact ∧ artifact.bytecode.isEmpty = false ∧
      artifact.bytecode.octets = .ok code := by
  obtain ⟨artifact, stored, built⟩ := bind_eq_ok.mp created
  cases empty : artifact.bytecode.isEmpty with
  | true =>
      rw [empty] at built
      cases built
  | false =>
      rw [empty, if_neg Bool.false_ne_true] at built
      obtain ⟨code, read, -⟩ := bind_eq_ok.mp built
      exact ⟨artifact, code, stored, empty, Except.mapError_eq_ok.mp read⟩

theorem creation_eq_ok_iff {store : Store} {artifact : Artifact} {code : List UInt8}
    (stored : store.artifact name = .ok artifact) (some : artifact.bytecode.isEmpty = false)
    (read : artifact.bytecode.octets = .ok code) {made : Artifact × List UInt8} :
    creation store name args = .ok made ↔
      ∃ encoded, artifact.interface.Encodes args encoded ∧ (artifact, code ++ encoded) = made := by
  have carried : artifact.bytecode.octets.onChain = .ok code := by
    rw [read]
    rfl
  unfold creation Interface.Encodes
  rw [stored, ok_bind, some, if_neg Bool.false_ne_true, carried, ok_bind]
  cases artifact.interface.constructor? with
  | some constructor =>
      simp [map_eq_ok, Abi.Result.onChain, Except.mapError_eq_ok]
  | none =>
      cases args with
      | nil => simp [pure_eq_ok]
      | cons arg args => simp

theorem transaction_injective {receiver : Option Address} :
    Function.Injective (transaction options receiver) := by
  intro data other same
  have fields := List.append_cancel_right (Json.object.inj same)
  have last := List.append_cancel_left fields
  simp only [List.cons.injEq, Prod.mk.injEq, Json.string.injEq, and_true, true_and] at last
  exact Hex.marked_injective last

theorem Submits.unique {transaction other : Json} (submits : Submits transaction id exchanges)
    (others : Submits other id exchanges) : transaction = other := by
  obtain ⟨first, rest, rfl, asks, -⟩ := submits
  obtain ⟨_, _, same, asked, -⟩ := others
  cases same
  have params := asks.symm.trans asked
  simp only [body, Json.object.injEq, List.cons.injEq, Prod.mk.injEq, Json.array.injEq, and_true,
    true_and] at params
  exact params

theorem not_submits_nil {transaction : Json} : ¬Submits transaction id [] := by
  rintro ⟨first, others, none, -⟩
  contradiction

/-- A creation of the artifact is submitted, with this code in front of the encoded arguments. -/
def Creates (node : Node (StateM (List Exchange))) (name : String) (args : List Json)
    (options : CallOptions) (id : Nat) (code : List UInt8) (exchanges : List Exchange) : Prop :=
  ∃ artifact encoded, node.store.artifact name = .ok artifact ∧
    artifact.interface.Encodes args encoded ∧
    Submits (transaction options none (code ++ encoded)) id exchanges

theorem creates_iff (replying : node.link = .replying replies) {code : List UInt8} :
    node.Creates name args options id code (((node.deploy name args options).run id).run []).2 ↔
      ∃ artifact encoded, node.store.artifact name = .ok artifact ∧
        artifact.interface.Encodes args encoded ∧ artifact.bytecode.isEmpty = false ∧
        artifact.bytecode.octets = .ok code := by
  have deployed : ∀ made, creation node.store name args = .ok made →
      Submits (transaction options none made.2) id
        (((node.deploy name args options).run id).run []).2 := by
    intro made created
    rw [deploy, created]
    exact submits_of_transact replying _ id
  constructor
  · rintro ⟨artifact, encoded, stored, encodes, submits⟩
    cases created : creation node.store name args with
    | error e =>
        rw [deploy, created] at submits
        exact absurd submits not_submits_nil
    | ok made =>
        have same := transaction_injective (submits.unique (deployed made created))
        obtain ⟨found, own, here, some, read⟩ := read_of_creation created
        obtain rfl := Except.ok.inj (stored.symm.trans here)
        obtain ⟨other, others, rfl⟩ := (creation_eq_ok_iff stored some read).mp created
        obtain rfl := encodes.unique others
        rw [List.append_cancel_right same]
        exact ⟨artifact, encoded, stored, encodes, some, read⟩
  · rintro ⟨artifact, encoded, stored, encodes, some, read⟩
    exact ⟨artifact, encoded, stored, encodes,
      deployed _ ((creation_eq_ok_iff stored some read).mpr ⟨encoded, encodes, rfl⟩)⟩

theorem creates_or_silent (replying : node.link = .replying replies) (name : String)
    (args : List Json) (options : CallOptions) (id : Nat) :
    let exchanges := (((node.deploy name args options).run id).run []).2
    exchanges = [] ∨ ∃ code, node.Creates name args options id code exchanges := by
  intro exchanges
  cases created : creation node.store name args with
  | error e =>
      left
      simp only [exchanges, deploy, created]
      rfl
  | ok made =>
      obtain ⟨artifact, code, stored, some, read⟩ := read_of_creation created
      obtain ⟨encoded, encodes, -⟩ := (creation_eq_ok_iff stored some read).mp created
      exact .inr ⟨code, (creates_iff replying).mpr ⟨artifact, encoded, stored, encodes, some, read⟩⟩

/-- The guard agrees with what reads the code on all texts that are not hollow. A deployment submits
at most a creation, and its code part is empty exactly if the text of the artifact is hollow. -/
theorem codeless_iff_hollow (replying : node.link = .replying replies) (name : String)
    (args : List Json) (options : CallOptions) (id : Nat) :
    let exchanges := (((node.deploy name args options).run id).run []).2
    (∀ b : Bytecode, (b.isEmpty = true ↔ b.octets = .ok []) ↔ ¬b.Hollow) ∧
      (exchanges = [] ∨ ∃ code, node.Creates name args options id code exchanges) ∧
      (node.Creates name args options id [] exchanges ↔
        ∃ artifact encoded, node.store.artifact name = .ok artifact ∧
          artifact.interface.Encodes args encoded ∧ artifact.bytecode.Hollow) := by
  intro exchanges
  refine ⟨fun b => Bytecode.guarded_iff_not_hollow,
    creates_or_silent replying name args options id, ?_⟩
  simp only [exchanges, creates_iff replying, Bytecode.hollow_iff]

theorem codeless_iff_hollow_of_box :
    (Box.node Box.plain).link = .replying Box.silence ∧
      ¬(Box.node Box.plain).Creates "Box" [] ⟨.zero, none⟩ 1 []
        ((((Box.node Box.plain).deploy "Box" [] ⟨.zero, none⟩).run 1).run []).2 := by
  have stored : (Box.node Box.plain).store.artifact "Box" = .ok ⟨"Box", ⟨[]⟩, .plain "0x00"⟩ :=
    Box.artifact_node (by simp [Box.plain, Box.artifact]) (by decide) rfl rfl
  have replying : (Box.node Box.plain).link = .replying Box.silence := rfl
  obtain ⟨guarded, -, codeless⟩ := codeless_iff_hollow replying "Box" [] ⟨.zero, none⟩ 1
  refine ⟨replying, fun creates => ?_⟩
  obtain ⟨artifact, encoded, found, -, hollow⟩ := codeless.mp creates
  obtain rfl := Except.ok.inj (stored.symm.trans found)
  have agrees : Bytecode.isEmpty (.plain "0x00") = true ↔
      Bytecode.octets (.plain "0x00") = .ok [] := by
    have some : Bytecode.isEmpty (.plain "0x00") = false := by rfl
    have read : Bytecode.octets (.plain "0x00") = .ok [0] := by rfl
    rw [some, read]
    simp
  exact (guarded _).mp agrees hollow

end Node

def Box.blank : Json :=
  .object [("contractName", .string "Box"), ("abi", .array []), ("bytecode", .string " ")]

theorem Node.creates_codeless_of_blank :
    ¬((Bytecode.plain " ").isEmpty = true ↔ (Bytecode.plain " ").octets = .ok []) ∧
      (Box.node Box.blank).Creates "Box" [] ⟨.zero, none⟩ 1 []
        ((((Box.node Box.blank).deploy "Box" [] ⟨.zero, none⟩).run 1).run []).2 := by
  have some : Bytecode.isEmpty (.plain " ") = false := by rfl
  have none : Bytecode.octets (.plain " ") = .ok [] := by rfl
  have stored : (Box.node Box.blank).store.artifact "Box" = .ok ⟨"Box", ⟨[]⟩, .plain " "⟩ :=
    Box.artifact_node (by simp [Box.blank]) (by decide) rfl rfl
  have replying : (Box.node Box.blank).link = .replying Box.silence := rfl
  constructor
  · rw [some, none]
    simp
  · exact (creates_iff replying).mpr ⟨_, [], stored, ⟨rfl, rfl⟩, some, none⟩

end Rehearsal
