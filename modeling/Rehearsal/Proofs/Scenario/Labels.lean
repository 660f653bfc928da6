import Rehearsal.Proofs.Json.Ordered
import Rehearsal.Proofs.Scenario.Emission
import Rehearsal.Proofs.Text.Numeral

namespace Rehearsal

open Json (Mapping)

/-! The arguments of an event under their names. Where an event is seen they stand in a mapping, so
that each name has one of them. A parameter without a name goes by one that is made of its position,
and nothing keeps another parameter from being called so. -/

namespace Abi

variable {param : Param} {index : Nat}

theorem Param.label_of_unnamed (unnamed : param.name = "") : param.label index = s!"arg{index}" :=
  if_pos unnamed

theorem Param.label_of_named (named : param.name ≠ "") : param.label index = param.name :=
  if_neg named

theorem positional_injective {i j : Nat} (same : s!"arg{i}" = s!"arg{j}") : i = j :=
  Text.toString_injective ((String.append_right_inj _).mp same)

theorem positional_ne_empty (i : Nat) : s!"arg{i}" ≠ "" := by
  intro empty
  have letters : ("arg" ++ toString i).toList = [] := congrArg String.toList empty
  rw [String.toList_append] at letters
  cases letters

namespace Event

variable {e : Event} {log : Log} {decoded : DecodedLog}

def labels (e : Event) : List String :=
  e.inputs.mapIdx fun i param => param.label i

/-- Parameters that have names have different ones. -/
def NamesDistinct (e : Event) : Prop :=
  ((e.inputs.map Param.name).filter (· ≠ "")).Nodup

/-- A parameter is called as another one goes by for want of a name. -/
def Clashes (e : Event) : Prop :=
  ∃ (i : Nat) (unnamed named : Param), e.inputs[i]? = some unnamed ∧ unnamed.name = "" ∧
    named ∈ e.inputs ∧ named.name = s!"arg{i}"

theorem labels_collect {event : String} {params : List Param} {topics : List Bytes32}
    {values : List Json} {args : List (String × Json)}
    (collected : collect event index params topics values = .ok args) :
    args.map Prod.fst = params.mapIdx fun i param => param.label (index + i) := by
  induction params generalizing index topics values args with
  | nil =>
      cases collected
      rfl
  | cons param params ih =>
      obtain ⟨value, _, _, rest, rfl, others, -⟩ := exists_collect_of_cons collected
      rw [List.map_cons, ih others, List.mapIdx_cons]
      simp only [Nat.add_zero, Nat.add_assoc, Nat.add_comm 1]

theorem labels_decodeLog (read : e.decodeLog log = .ok decoded) :
    decoded.args.map Prod.fst = e.labels := by
  simp only [decodeLog, bind_eq_ok, pure_eq_ok] at read
  obtain ⟨types, -, values, -, args, collected, rfl⟩ := read
  simpa [labels] using labels_collect collected

theorem labels_nodup_iff_index : e.labels.Nodup ↔
    ∀ (i j : Nat) (p q : Param), e.inputs[i]? = some p → e.inputs[j]? = some q →
      p.label i = q.label j → i = j := by
  constructor
  · intro distinct i j p q first second same
    obtain ⟨inside, rfl⟩ := List.getElem?_eq_some_iff.mp first
    obtain ⟨otherInside, rfl⟩ := List.getElem?_eq_some_iff.mp second
    have length : e.labels.length = e.inputs.length := List.length_mapIdx
    have labelled : i < e.labels.length := by omega
    have otherLabelled : j < e.labels.length := by omega
    have sameLabel : e.labels[i] = e.labels[j] := by
      simpa only [labels, List.getElem_mapIdx] using same
    exact distinct.getElem_inj_iff.mp sameLabel
  · intro apart
    rw [List.nodup_iff_injective_getElem]
    rintro ⟨i, inside⟩ ⟨j, otherInside⟩ same
    rw [labels, List.length_mapIdx] at inside otherInside
    simp only [labels, List.getElem_mapIdx] at same
    exact Fin.ext (apart i j _ _ (List.getElem?_eq_getElem inside)
      (List.getElem?_eq_getElem otherInside) same)

theorem NamesDistinct.eq_of_name (distinct : e.NamesDistinct) {i j : Nat} {p q : Param}
    (first : e.inputs[i]? = some p) (second : e.inputs[j]? = some q) (named : p.name ≠ "")
    (same : p.name = q.name) : i = j := by
  obtain ⟨inside, rfl⟩ := List.getElem?_eq_some_iff.mp first
  obtain ⟨otherInside, rfl⟩ := List.getElem?_eq_some_iff.mp second
  rw [NamesDistinct, List.Nodup, List.pairwise_filter, List.pairwise_map,
    List.pairwise_iff_getElem] at distinct
  have otherNamed : e.inputs[j].name ≠ "" := same ▸ named
  rcases Nat.lt_trichotomy i j with before | equal | behind
  · exact absurd same (distinct i j inside otherInside before (by simpa) (by simpa))
  · exact equal
  · exact absurd same.symm (distinct j i otherInside inside behind (by simpa) (by simpa))

theorem labels_nodup_iff : e.labels.Nodup ↔ e.NamesDistinct ∧ ¬e.Clashes := by
  rw [labels_nodup_iff_index]
  constructor
  · intro apart
    constructor
    · rw [NamesDistinct, List.Nodup, List.pairwise_filter, List.pairwise_map,
        List.pairwise_iff_getElem]
      intro i j inside otherInside before named otherNamed same
      rw [decide_eq_true_iff] at named otherNamed
      have equal := apart i j _ _ (List.getElem?_eq_getElem inside)
        (List.getElem?_eq_getElem otherInside)
        (by rwa [Param.label_of_named named, Param.label_of_named otherNamed])
      omega
    · rintro ⟨i, unnamed, named, first, noName, member, called⟩
      obtain ⟨j, second⟩ := List.mem_iff_getElem?.mp member
      have hasName : named.name ≠ "" := called ▸ positional_ne_empty i
      cases apart i j _ _ first second
        (by rw [Param.label_of_unnamed noName, Param.label_of_named hasName, called])
      cases first.symm.trans second
      exact hasName noName
  · rintro ⟨distinct, free⟩ i j p q first second same
    by_cases noName : p.name = ""
    · rw [Param.label_of_unnamed noName] at same
      by_cases otherNoName : q.name = ""
      · rw [Param.label_of_unnamed otherNoName] at same
        exact positional_injective same
      · rw [Param.label_of_named otherNoName] at same
        exact absurd ⟨i, p, q, first, noName, List.mem_of_getElem? second, same.symm⟩ free
    · rw [Param.label_of_named noName] at same
      by_cases otherNoName : q.name = ""
      · rw [Param.label_of_unnamed otherNoName] at same
        exact absurd ⟨j, q, p, second, otherNoName, List.mem_of_getElem? first, same⟩ free
      · rw [Param.label_of_named otherNoName] at same
        exact distinct.eq_of_name first second noName same

end Event

end Abi

namespace Execution

/-- Every argument of a log stands in a mapping under its name, and nothing else does. -/
structure Keeps (e : Abi.Event) (decoded : Abi.DecodedLog) (args : Mapping Json) : Prop where
  count : args.length = e.inputs.length
  bound : ∀ entry ∈ decoded.args, args.get? entry.1 = some entry.2

theorem keeps_seen_iff {e : Abi.Event} {log : Abi.Log} {decoded : Abi.DecodedLog}
    (read : e.decodeLog log = .ok decoded) :
    Keeps e decoded (seen log decoded).args ↔ e.NamesDistinct ∧ ¬e.Clashes := by
  have names := Abi.Event.labels_decodeLog read
  have length : decoded.args.length = e.inputs.length := by
    rw [← List.length_map Prod.fst, names, Abi.Event.labels, List.length_mapIdx]
  have count : (seen log decoded).args.length = e.inputs.length ↔ e.labels.Nodup := by
    rw [← length, ← names]
    exact Mapping.length_ofList_eq_iff
  rw [← Abi.Event.labels_nodup_iff, ← count]
  constructor
  · exact Keeps.count
  · intro enough
    refine ⟨enough, ?_⟩
    intro entry member
    exact Mapping.get?_ofList (names ▸ count.mp enough) member

/-- A log that is read is reported with all of its arguments just when no parameter is called as
another one goes by for want of a name. Of arguments under one name, one is reported. -/
theorem arguments_kept_iff_no_clash {context : Context} {log : Abi.Log} {handle : Handle}
    {e : Abi.Event} {decoded : Abi.DecodedLog} (chosen : Chosen context log handle e)
    (read : e.decodeLog log = .ok decoded) (distinct : e.NamesDistinct) :
    (∀ before after, eventsOf context (before ++ log :: after) =
      eventsOf context before ++ seen log decoded :: eventsOf context after) ∧
    decoded.args.map Prod.fst = e.labels ∧
    (seen log decoded).args.length = e.labels.dedup.length ∧
    (Keeps e decoded (seen log decoded).args ↔ ¬e.Clashes) := by
  have names := Abi.Event.labels_decodeLog read
  refine ⟨?_, names, ?_, ?_⟩
  · intro before after
    rw [eventsOf_append_cons, eventOf?_eq_some.mpr ⟨handle, e, decoded, chosen, read, rfl⟩]
    simp
  · rw [← names]
    exact Mapping.length_ofList _
  · rw [keeps_seen_iff read]
    exact and_iff_right distinct

def paid (first second : String) : Abi.Event :=
  ⟨"Paid", [⟨first, "uint256", [], false⟩, ⟨second, "uint256", [], false⟩], false⟩

def till (first second : String) : Handle :=
  ⟨"Till", .zero, ⟨[.event (paid first second)]⟩⟩

def withTill (first second : String) : Context :=
  Context.empty.insertContract "till" (till first second)

def paidLog : Abi.Log :=
  ⟨.zero, [Keccak.hash (Utf8.encodeString
      ("Paid" ++ (AbiType.tuple [.uint 256, .uint 256]).canonical))],
    List.replicate 31 0 ++ 7 :: List.replicate 31 0 ++ [8]⟩

theorem chosen_paid (first second : String) :
    Chosen (withTill first second) paidLog (till first second) (paid first second) :=
  ⟨⟨"till", [], [], rfl, rfl, nofun⟩, [], [], rfl, ⟨rfl, _, rfl, rfl⟩, nofun⟩

theorem arguments_kept_of_other_position :
    (paid "" "arg1").NamesDistinct ∧
      Chosen (withTill "" "arg1") paidLog (till "" "arg1") (paid "" "arg1") ∧
      (paid "" "arg1").decodeLog paidLog =
        .ok ⟨"Paid", [("arg0", .string "7"), ("arg1", .string "8")]⟩ ∧
      ¬(paid "" "arg1").Clashes ∧
      Keeps (paid "" "arg1") ⟨"Paid", [("arg0", .string "7"), ("arg1", .string "8")]⟩
        [("arg0", .string "7"), ("arg1", .string "8")] := by
  have distinct : (paid "" "arg1").labels.Nodup := by decide
  obtain ⟨named, free⟩ := Abi.Event.labels_nodup_iff.mp distinct
  have read : (paid "" "arg1").decodeLog paidLog =
      .ok ⟨"Paid", [("arg0", .string "7"), ("arg1", .string "8")]⟩ := rfl
  have chosen := chosen_paid "" "arg1"
  exact ⟨named, chosen, read, free,
    (arguments_kept_iff_no_clash chosen read named).2.2.2.mpr free⟩

theorem argument_lost_of_clash :
    (paid "arg1" "").NamesDistinct ∧
      Chosen (withTill "arg1" "") paidLog (till "arg1" "") (paid "arg1" "") ∧
      (paid "arg1" "").decodeLog paidLog =
        .ok ⟨"Paid", [("arg1", .string "7"), ("arg1", .string "8")]⟩ ∧
      eventsOf (withTill "arg1" "") [paidLog] = [⟨"Paid", .zero, [("arg1", .string "8")]⟩] := by
  have distinct : (paid "arg1" "").NamesDistinct := List.nodup_singleton "arg1"
  have read : (paid "arg1" "").decodeLog paidLog =
      .ok ⟨"Paid", [("arg1", .string "7"), ("arg1", .string "8")]⟩ := rfl
  have chosen := chosen_paid "arg1" ""
  refine ⟨distinct, chosen, read, ?_⟩
  have shown : eventOf? (withTill "arg1" "") paidLog =
      some ⟨"Paid", .zero, [("arg1", .string "8")]⟩ :=
    eventOf?_eq_some.mpr ⟨_, _, _, chosen, read, rfl⟩
  rw [eventsOf, List.filterMap_cons, shown]
  rfl

end Execution

end Rehearsal
