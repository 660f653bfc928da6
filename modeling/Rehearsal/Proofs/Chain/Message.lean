import Rehearsal.Chain.Node
import Rehearsal.Proofs.Scenario.Meaning
import Rehearsal.Proofs.Text.Search

namespace Rehearsal

/-! The reason of a revert that only the message of an error tells. Behind the first mark the reason
stands between quotes, and behind the others without any. The quote at the end is taken off behind
each of them, so that a reason without quotes around it is told as it stands unless it ends in
one. -/

namespace Text

theorem blank_of_trim_eq_nil {text : List Char} (none : trim text = []) :
    ∀ c ∈ text, isBlank c = true := by
  obtain ⟨front, back, whole, before, behind⟩ := padded_trim (String.ofList text)
  rw [String.toList_ofList, none, List.append_nil] at whole
  rw [whole]
  exact List.forall_mem_append.mpr ⟨before, behind⟩

theorem length_trim_le (text : List Char) : (trim text).length ≤ text.length := by
  obtain ⟨front, back, whole, -, -⟩ := padded_trim (String.ofList text)
  rw [String.toList_ofList] at whole
  have total := congrArg List.length whole
  simp only [List.length_append] at total
  omega

end Text

namespace Node

def quotedMark : String := "reverted with reason string '"

def plainMark : String := "execution reverted: "

/-- Some text without blanks around it, in which there is no mark of a reason between quotes. -/
structure IsReason (reason : String) : Prop where
  full : reason ≠ ""
  trimmed : Text.trim reason.toList = reason.toList
  unmarked : ¬quotedMark.toList <:+: reason.toList

def trimmed? (text : List Char) : Option String :=
  match Text.trim text with
  | [] => none
  | reason => some (String.ofList reason)

variable {message mark reason : String} {rest : List Char}

theorem reasonAfter?_of_found (found : Text.after? mark.toList message.toList = some rest) :
    reasonAfter? message.toList mark = trimmed? ((Text.dropSuffix? ['\''] rest).getD rest) := by
  rw [reasonAfter?, found]
  rfl

theorem reasonAfter?_of_absent (absent : ¬mark.toList <:+: message.toList) :
    reasonAfter? message.toList mark = none := by
  rw [reasonAfter?, Text.after?_eq_none_iff.mpr absent]

theorem reasonOf?_eq (message : String) :
    reasonOf? message = (reasonAfter? message.toList quotedMark).or
      ((reasonAfter? message.toList plainMark).or (reasonAfter? message.toList "revert ")) := by
  have first (mark : String) (marks : List String) :
      (mark :: marks).findSome? (reasonAfter? message.toList) =
        (reasonAfter? message.toList mark).or (marks.findSome? (reasonAfter? message.toList)) := by
    rw [List.findSome?_cons]
    cases reasonAfter? message.toList mark with
    | none => rfl
    | some reason => rfl
  rw [reasonOf?, reasonMarks, first, first, first, List.findSome?_nil, Option.or_none, quotedMark,
    plainMark]

theorem trimmed?_of_isReason (isReason : IsReason reason) :
    trimmed? reason.toList = some reason := by
  rw [trimmed?, isReason.trimmed]
  split
  · next none => exact absurd (String.toList_eq_nil_iff.mp none) isReason.full
  · rw [String.ofList_toList]

theorem mentionsRevert_of_infix (told : "revert".toList <:+: message.toList) :
    mentionsRevert message = true :=
  Text.contains_eq_true_iff.mpr (told.map Char.toLower)

theorem toChainError_of_mark (mark : String) (code : Int)
    (speaks : "revert".toList <:+: mark.toList) (within : mark.toList <:+: message.toList) :
    RpcError.toChainError ⟨code, message, none⟩ = .reverted (reasonOf? message) none := by
  rw [RpcError.toChainError]
  simp only [Option.bind_none, mentionsRevert_of_infix (speaks.trans within), if_true]

/-! A reason between quotes. -/

theorem reasonOf?_quoted {front : String} (absent : ¬quotedMark.toList <:+: front.toList)
    (isReason : IsReason reason) :
    reasonOf? (front ++ quotedMark ++ reason ++ "'") = some reason := by
  have found : Text.after? quotedMark.toList (front ++ quotedMark ++ reason ++ "'").toList =
      some (reason.toList ++ ['\'']) := by
    have once : '\'' ∉ "reverted with reason string ".toList := by decide
    have whole : (front ++ quotedMark ++ reason ++ "'").toList =
        front.toList ++ quotedMark.toList ++ (reason.toList ++ ['\'']) := by simp
    rw [whole]
    exact Text.after?_append once absent
  have told := reasonAfter?_of_found found
  rw [Text.dropSuffix?_append, Option.getD_some, trimmed?_of_isReason isReason] at told
  rw [reasonOf?_eq, told, Option.some_or]

/-! A reason without quotes around it. -/

theorem absent_behind_plainMark (absent : ¬quotedMark.toList <:+: reason.toList) :
    ¬quotedMark.toList <:+: (plainMark ++ reason).toList := by
  have same : Text.after? quotedMark.toList (plainMark ++ reason).toList =
      Text.after? quotedMark.toList reason.toList := by
    rw [String.toList_append]
    rfl
  rwa [← Text.after?_eq_none_iff, same, Text.after?_eq_none_iff]

theorem reasonOf?_plain (absent : ¬quotedMark.toList <:+: reason.toList) :
    reasonOf? (plainMark ++ reason) =
      (trimmed? ((Text.dropSuffix? ['\''] reason.toList).getD reason.toList)).or
        (reasonAfter? (plainMark ++ reason).toList "revert ") := by
  have found : Text.after? plainMark.toList (plainMark ++ reason).toList = some reason.toList :=
    Text.after?_of_prefix (by decide) String.toList_append
  rw [reasonOf?_eq, reasonAfter?_of_absent (absent_behind_plainMark absent), Option.none_or,
    reasonAfter?_of_found found]

theorem reasonOf?_plain_of_open (isReason : IsReason reason)
    (notClosed : ¬['\''] <:+ reason.toList) : reasonOf? (plainMark ++ reason) = some reason := by
  rw [reasonOf?_plain isReason.unmarked, Text.dropSuffix?_eq_none_iff.mpr notClosed,
    Option.getD_none, trimmed?_of_isReason isReason, Option.some_or]

theorem eq_nil_of_trim_eq_nil {body : List Char} (none : Text.trim body = [])
    (trimmed : Text.trim (body ++ ['\'']) = body ++ ['\'']) : body = [] := by
  have quote : Text.trim (body ++ ['\''] ++ []) = ['\''] :=
    Text.trim_padded (Text.blank_of_trim_eq_nil none) nofun (List.forall_mem_singleton.mpr rfl)
  rw [List.append_nil, trimmed] at quote
  exact List.append_left_eq_self.mp quote

theorem reasonOf?_plain_of_closed {body : String} (isReason : IsReason (body ++ "'")) :
    reasonOf? (plainMark ++ (body ++ "'")) = trimmed? body.toList := by
  have quote : (body ++ "'").toList = body.toList ++ ['\''] := String.toList_append
  have trimmed := isReason.trimmed
  rw [reasonOf?_plain isReason.unmarked, quote, Text.dropSuffix?_append, Option.getD_some]
  cases left : Text.trim body.toList with
  | cons c rest =>
      have told : trimmed? body.toList = some (String.ofList (c :: rest)) := by
        rw [trimmed?, left]
      rw [told, Option.some_or]
  | nil =>
      rw [quote] at trimmed
      have empty := eq_nil_of_trim_eq_nil left trimmed
      obtain rfl := String.toList_eq_nil_iff.mp empty
      decide

theorem trimmed?_ne (body : String) : trimmed? body.toList ≠ some (body ++ "'") := by
  intro same
  rw [trimmed?] at same
  split at same
  · contradiction
  · have whole := congrArg (fun text => text.toList.length) (Option.some.inj same)
    have shorter := Text.length_trim_le body.toList
    have quote : "'".toList.length = 1 := rfl
    rw [String.toList_ofList, String.toList_append, List.length_append] at whole
    omega

/-- A reason that only the message of an error tells. Between quotes it is kept as it is. Without
quotes around it, it is kept unless it ends in one: then this quote is lost, with the blanks in front
of it, and where there is nothing else there is no reason. -/
theorem reason_kept_iff (code : Int) (isReason : IsReason reason) :
    (RpcError.toChainError ⟨code, "execution reverted: " ++ reason, none⟩ =
        .reverted (some reason) none ↔ ¬['\''] <:+ reason.toList) ∧
      (∀ body, reason = body ++ "'" →
        RpcError.toChainError ⟨code, "execution reverted: " ++ reason, none⟩ =
          .reverted (trimmed? body.toList) none) ∧
      ∀ front : String, ¬quotedMark.toList <:+: front.toList →
        RpcError.toChainError
            ⟨code, front ++ "reverted with reason string '" ++ reason ++ "'", none⟩ =
          .reverted (some reason) none := by
  have plain : RpcError.toChainError ⟨code, "execution reverted: " ++ reason, none⟩ =
      .reverted (reasonOf? (plainMark ++ reason)) none := by
    apply toChainError_of_mark plainMark code (by decide)
    rw [String.toList_append]
    exact (List.prefix_append _ _).isInfix
  refine ⟨?_, ?_, ?_⟩
  · rw [plain]
    constructor
    · rintro kept ⟨body, closed⟩
      have whole : reason = String.ofList body ++ "'" := by
        rw [← String.toList_inj, String.toList_append, String.toList_ofList]
        exact closed.symm
      subst whole
      rw [reasonOf?_plain_of_closed isReason] at kept
      injection kept with kept
      exact trimmed?_ne _ kept
    · intro notClosed
      rw [reasonOf?_plain_of_open isReason notClosed]
  · rintro body rfl
    rw [plain, reasonOf?_plain_of_closed isReason]
  · intro front absent
    rw [toChainError_of_mark quotedMark code (by decide)]
    · exact congrArg (ChainError.reverted · none) (reasonOf?_quoted absent isReason)
    · refine ⟨front.toList, (reason ++ "'").toList, ?_⟩
      simp [quotedMark]

theorem reason_kept_of_owner :
    IsReason "only the owner's" ∧
      RpcError.toChainError ⟨3, "execution reverted: " ++ "only the owner's", none⟩ =
        .reverted (some "only the owner's") none ∧
      RpcError.toChainError ⟨3, "VM Exception: " ++ "reverted with reason string '" ++
          "only the owner's" ++ "'", none⟩ = .reverted (some "only the owner's") none := by
  have isReason : IsReason "only the owner's" := ⟨by decide, by decide, by decide⟩
  obtain ⟨plain, -, quoted⟩ := reason_kept_iff 3 isReason
  exact ⟨isReason, plain.mpr (by decide), quoted "VM Exception: " (by decide)⟩

theorem reason_cut_of_quoted_word :
    IsReason "not 'owner'" ∧
      RpcError.toChainError ⟨3, "execution reverted: " ++ "not 'owner'", none⟩ ≠
        .reverted (some "not 'owner'") none := by
  have isReason : IsReason "not 'owner'" := ⟨by decide, by decide, by decide⟩
  have closed : "not 'owner'" = "not 'owner" ++ "'" := by decide
  refine ⟨isReason, fun kept => ?_⟩
  rw [toChainError_of_mark plainMark 3 (by decide) (by decide)] at kept
  injection kept with kept
  rw [closed] at isReason kept
  exact trimmed?_ne _ ((reasonOf?_plain_of_closed isReason).symm.trans kept)

end Node

end Rehearsal
