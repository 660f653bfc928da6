import Rehearsal.Proofs.Scenario.Decimal
import Rehearsal.Proofs.Suite.Knowledge

namespace Rehearsal

open MonadAttach (CanReturn)

/-! Names that are made like those of accounts. The check knows an account by any digits, a context
by the plain digits of its position alone; so digits with a zero too many in front name nothing,
unless they happen to be a name that the setup gives. -/

def digitName (digits : List Char) : String :=
  "signer" ++ String.ofList digits

def SuiteDefinition.defaultSigner (definition : SuiteDefinition) : Option String :=
  definition.setup.bind SetupPlan.defaultSigner

/-! The check. -/

/-- The check takes a name wherever it may stand for a signer. -/
structure Declared.Accepts (d : Declared) (name : String) : Prop where
  sender : ∀ location, Check.signer d location (some name) = []
  default : Check.defaultSigner d (some name) = []
  token : ∀ location text, Token.parse? text = some (.namedSigner name) →
    Check.template d location (.string text) = none

theorem Declared.accepts_of_knowsSigner {d : Declared} {name : String}
    (known : d.knowsSigner name = true) : d.Accepts name where
  sender _ := if_pos known
  default := if_pos known
  token location text parsed := by
    simp only [Check.template, parsed, Option.bind_some, Check.token, if_pos known, Option.map_none]

theorem isAccountName_digitName {digits : List Char} (nonempty : digits ≠ [])
    (decimals : ∀ c ∈ digits, Text.isDecimal c = true) :
    Declared.isAccountName (digitName digits) = true := by
  have rest : Text.dropPrefix? "signer".toList (digitName digits).toList = some digits := by
    rw [Text.dropPrefix?_eq_some_iff]
    simp [digitName]
  simp only [Declared.isAccountName, rest, Bool.and_eq_true, Bool.not_eq_true', List.all_eq_true]
  exact ⟨by simpa using nonempty, decimals⟩

/-! The run. -/

/-- A context resolves a name just when something holds, wherever the name may stand for a signer. -/
structure Context.ResolvesJust (context : Context) (name : String) (p : Prop) : Prop where
  sender : ∀ s : Step, s.sender = some name → ((∃ address, s.signerIn context = .ok address) ↔ p)
  default : (∃ chosen, context.setDefaultSigner name = .ok chosen) ↔ p
  token : ∀ active now text, Token.parse? text = some (.namedSigner name) →
    ((∃ value, Resolver.resolve ⟨context, active, now⟩ (.string text) = .ok value) ↔ p)

theorem Context.resolvesJust_of_hasSigner_iff {context : Context} {name : String} {p : Prop}
    (has : context.HasSigner name ↔ p) : context.ResolvesJust name p where
  sender s named := by
    simp only [Step.signerIn, named]
    exact has
  default := by
    simp only [Setup.setDefaultSigner_eq_ok, exists_and_left, exists_eq', and_true]
    rw [← has, hasSigner_iff_contains]
  token active now text parsed := by
    rw [← has, HasSigner]
    simp only [Resolver.resolve, parsed, map_eq_ok, Resolver.resolveToken, signer]
    cases context.signers.get? name with
    | none => simp
    | some address => simp

theorem Context.ResolvesJust.congr {context : Context} {name : String} {p q : Prop}
    (just : context.ResolvesJust name p) (same : p ↔ q) : context.ResolvesJust name q :=
  propext same ▸ just

theorem digitName_decimal (index : Nat) :
    digitName (Text.decimal index) = Setup.accountName index := by
  rw [digitName, Setup.accountName, Text.decimal, ← Nat.toString_eq_ofList_toDigits]
  rfl

theorem digitName_injective : Function.Injective digitName := by
  intro digits others same
  exact String.ofList_injective ((String.append_right_inj _).mp same)

theorem Context.hasSigner_of_setDefaultSigner {context after : Context} {name : String}
    (set : context.setDefaultSigner name = .ok after) : after.HasSigner name := by
  obtain ⟨known, rfl⟩ := Setup.setDefaultSigner_eq_ok.mp set
  exact hasSigner_of_contains known

theorem Setup.hasSigner_of_bind {plan : SetupPlan} {store : Option Store} {network name : String}
    {accounts : List Address} {context : Context}
    (bound : Setup.bind plan store network accounts = .ok context)
    (chosen : plan.defaultSigner = some name) : context.HasSigner name := by
  obtain ⟨named, -, rest⟩ := bind_eq_ok.mp bound
  rw [chosen] at rest
  obtain ⟨after, set, attached⟩ := bind_eq_ok.mp rest
  have has := Context.hasSigner_of_setDefaultSigner set
  rw [Context.hasSigner_congr (signers_attachAll attached)]
  exact has

theorem Setup.hasSigner_of_defaultSigner {m : Type → Type} [Monad m] [LawfulMonad m]
    [MonadAttach m] [LawfulMonadAttach m] {chain : Chain m} {now : Nat}
    {definition : SuiteDefinition} {store : Option Store} {network name : String}
    {context : Context}
    (ran : CanReturn ((Suite.ofDefinition definition store network now).setup chain)
      (.ok context)) (chosen : definition.defaultSigner = some name) : context.HasSigner name := by
  obtain ⟨accounts, -, stages⟩ := Setup.stages_of_setup ran
  unfold SuiteDefinition.defaultSigner at chosen
  cases setup : definition.setup with
  | none =>
      rw [setup] at chosen
      contradiction
  | some plan =>
      rw [setup] at chosen stages
      obtain ⟨ready, bound, deployed⟩ := stages
      rw [Context.hasSigner_congr (extends_of_deployAll deployed).signers]
      exact hasSigner_of_bind bound chosen

theorem exists_accountName_iff {digits : List Char} {count : Nat}
    (below : Text.numeral 10 digits < count) :
    (∃ index < count, digitName digits = Setup.accountName index) ↔
      digits = Text.decimal (Text.numeral 10 digits) := by
  constructor
  · rintro ⟨index, -, same⟩
    rw [← digitName_decimal] at same
    rw [digitName_injective same, Text.numeral_decimal]
  · intro plain
    exact ⟨_, below, by rw [← digitName_decimal, ← plain]⟩

/-- The check takes every name with digits for that of an account, whatever a suite declares. Of those
whose digits denote the position of an account, a context behind a setup resolves just the ones with
the plain digits of the position and those that the setup itself gives; a setup that chooses another
one as the default signer comes to no context. -/
theorem account_name_resolved_iff {m : Type → Type} [Monad m] [LawfulMonad m] [MonadAttach m]
    [LawfulMonadAttach m] {chain : Chain m} {now : Nat} {definition : SuiteDefinition}
    {store : Option Store} {network : String} {context : Context}
    (ran : CanReturn ((Suite.ofDefinition definition store network now).setup chain)
      (.ok context)) :
    ∃ accounts, CanReturn chain.signers (.ok accounts) ∧
      ∀ digits, digits ≠ [] → (∀ c ∈ digits, Text.isDecimal c = true) →
        Text.numeral 10 digits < accounts.length →
          let known := digits = Text.decimal (Text.numeral 10 digits) ∨
            digitName digits ∈ definition.aliases
          (∀ d : Declared, d.Accepts (digitName digits)) ∧
            context.ResolvesJust (digitName digits) known ∧
            (definition.defaultSigner = some (digitName digits) → known) := by
  obtain ⟨accounts, returned, hasSigner_iff⟩ := Setup.hasSigner_setup_iff ran
  refine ⟨accounts, returned, fun digits nonempty decimals below => ?_⟩
  intro known
  have has_iff : context.HasSigner (digitName digits) ↔ known := by
    rw [hasSigner_iff, exists_accountName_iff below]
  refine ⟨fun d => Declared.accepts_of_knowsSigner ?_,
    Context.resolvesJust_of_hasSigner_iff has_iff, fun chosen => ?_⟩
  · rw [Declared.knowsSigner, isAccountName_digitName nonempty decimals, Bool.or_true]
  · exact has_iff.mp (Setup.hasSigner_of_defaultSigner ran chosen)

def padded : SuiteDefinition where
  metadata := ⟨"padded", none, [], none⟩
  setup := some ⟨[("signer000", 0)], some "signer000", [], []⟩
  teardown := none
  scenarios := [⟨"one", none, [(Step.deploy "box" "Box").withSender "signer00"]⟩]

theorem account_name_resolved_of_padded :
    ∃ context, (Suite.ofDefinition padded none "local" 0).setup Suite.obliging = .ok context ∧
      context.ResolvesJust "signer0" True ∧ context.ResolvesJust "signer00" False ∧
      context.ResolvesJust "signer000" True := by
  have ran : CanReturn ((Suite.ofDefinition padded none "local" 0).setup Suite.obliging) _ := rfl
  obtain ⟨accounts, returned, each⟩ := account_name_resolved_iff ran
  cases returned
  obtain ⟨-, one, -⟩ := each ['0'] (by decide) (List.all_eq_true.mp (by decide)) (by decide)
  obtain ⟨-, two, -⟩ := each ['0', '0'] (by decide) (List.all_eq_true.mp (by decide)) (by decide)
  obtain ⟨-, three, -⟩ :=
    each ['0', '0', '0'] (by decide) (List.all_eq_true.mp (by decide)) (by decide)
  exact ⟨_, rfl, one.congr (by decide), two.congr (by decide), three.congr (by decide)⟩

theorem account_name_unknown_of_zeros :
    padded.check = [] ∧
      ∃ context, (Suite.ofDefinition padded none "local" 0).setup Suite.obliging = .ok context ∧
        context.signer "signer00" = .error (.reference (.unknownSigner "signer00")) := by
  refine ⟨by decide, _, rfl, by rfl⟩

end Rehearsal
