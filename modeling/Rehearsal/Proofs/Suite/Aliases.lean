import Rehearsal.Proofs.Lookup
import Rehearsal.Proofs.Result
import Rehearsal.Proofs.Text.Numeral
import Rehearsal.Suite.Setup

namespace Rehearsal

open Json (Mapping)

/-! Names for the accounts of a chain. Positions are looked up by the names of accounts in the very
mapping that the names go into, so a name bound before stands in for the account that is called
so. An index is therefore followed from binding to binding, until it leads to a position. -/

namespace Setup

/-! Accounts by their positions. -/

theorem accountName_injective : Function.Injective accountName := by
  intro i j same
  exact Text.toString_injective ((String.append_right_inj _).mp same)

/-- A context knows the accounts of a list by their positions, and no other signers. -/
structure Numbers (accounts : List Address) (context : Context) : Prop where
  get? : ∀ index, context.signers.get? (accountName index) = accounts[index]?
  length : context.signers.length = accounts.length

theorem Numbers.addSigner {accounts : List Address} {context : Context}
    (numbers : Numbers accounts context) (address : Address) :
    Numbers (accounts ++ [address])
      (context.addSigner (accountName accounts.length) address) := by
  constructor
  · intro index
    rw [Context.get?_addSigner]
    by_cases last : index = accounts.length
    · rw [last, if_pos rfl, List.getElem?_concat_length]
    · rw [if_neg fun same => last (accountName_injective same).symm, numbers.get?]
      rcases Nat.lt_or_gt_of_ne last with below | beyond
      · rw [List.getElem?_append_left below]
      · rw [List.getElem?_eq_none (by omega), List.getElem?_eq_none (by simp; omega)]
  · have free : context.signers.get? (accountName accounts.length) = none := by
      rw [numbers.get?, List.getElem?_eq_none (Nat.le_refl _)]
    rw [Context.addSigner, Mapping.length_insert_of_get?_eq_none free, numbers.length]
    simp

theorem Numbers.addAccounts {front : List Address} {context : Context}
    (numbers : Numbers front context) (rest : List Address) :
    Numbers (front ++ rest) (addAccounts context front.length rest) := by
  induction rest generalizing front context with
  | nil => rwa [List.append_nil]
  | cons address rest ih =>
      have more := ih (numbers.addSigner address)
      rwa [List.append_assoc, List.length_append] at more

theorem numbers_withAccounts (accounts : List Address) :
    Numbers accounts (withAccounts accounts) := by
  have none : Numbers [] Context.empty := ⟨fun _ => rfl, rfl⟩
  have numbers : Numbers accounts (addAccounts Context.empty 0 accounts) :=
    none.addAccounts accounts
  cases accounts with
  | nil => exact numbers
  | cons address rest => exact ⟨numbers.get?, numbers.length⟩

/-! Where an index leads. Behind bindings, the name of an account stands for the account that its
index leads to. -/

/-- The position that an index leads to behind bindings, the latest of them first. -/
def followed : List (String × Nat) → Nat → Nat
  | [], index => index
  | (name, target) :: earlier, index =>
      if name = accountName index then followed earlier target else followed earlier index

def positions : (bound : List (String × Nat)) → List (String × Nat) → List (String × Nat)
  | _, [] => []
  | bound, (name, index) :: rest =>
      (name, followed bound index) :: positions ((name, index) :: bound) rest

def Stands (accounts : List Address) (bound : List (String × Nat)) (context : Context) : Prop :=
  ∀ index, context.signers.get? (accountName index) = accounts[followed bound index]?

theorem Stands.addSigner {accounts : List Address} {bound : List (String × Nat)}
    {context : Context} {index : Nat} {address : Address} (stands : Stands accounts bound context)
    (found : context.signers.get? (accountName index) = some address) (name : String) :
    Stands accounts ((name, index) :: bound) (context.addSigner name address) := by
  intro other
  rw [Context.get?_addSigner, followed]
  by_cases same : name = accountName other
  · rw [if_pos same, if_pos same, ← found, stands index]
  · rw [if_neg same, if_neg same, stands other]

/-- Names like those of accounts are given to just these accounts. -/
def Plain (entries : List (String × Nat)) : Prop :=
  ∀ index target, (accountName index, target) ∈ entries → target = index

theorem Plain.followed {bound : List (String × Nat)} (plain : Plain bound) (index : Nat) :
    followed bound index = index := by
  induction bound with
  | nil => rfl
  | cons entry earlier ih =>
      obtain ⟨name, target⟩ := entry
      have others := ih fun index target member =>
        plain index target (List.mem_cons_of_mem _ member)
      rw [Setup.followed]
      split
      · next same =>
        rw [plain index target (by rw [same]; exact List.mem_cons_self), others]
      · exact others

theorem Plain.positions {bound entries : List (String × Nat)}
    (plain : Plain (entries.reverse ++ bound)) : positions bound entries = entries := by
  induction entries generalizing bound with
  | nil => rfl
  | cons entry rest ih =>
      obtain ⟨name, index⟩ := entry
      have before : Plain bound := fun i target member =>
        plain i target (List.mem_append_right _ member)
      rw [List.reverse_cons, List.append_assoc, List.singleton_append] at plain
      rw [Setup.positions, before.followed, ih plain]

/-! The names of a plan, bound one after the other: the stage of a declared setup that comes first
behind the accounts. -/

section

variable {accounts : List Address} {bound entries : List (String × Nat)} {context : Context}
  {total : Nat}

theorem addAliases_eq_error (stands : Stands accounts bound context)
    (astray : ∃ entry ∈ positions bound entries, accounts.length ≤ entry.2) :
    ∃ name index, (name, index) ∈ entries ∧
      addAliases total context entries =
        .error (.configuration (.signerIndex name index total)) := by
  induction entries generalizing bound context with
  | nil => simp [positions] at astray
  | cons entry rest ih =>
      obtain ⟨name, index⟩ := entry
      rw [addAliases]
      cases found : context.signers.get? (accountName index) with
      | none => exact ⟨name, index, List.mem_cons_self, rfl⟩
      | some address =>
          have within : followed bound index < accounts.length := by
            rw [stands index] at found
            exact (List.getElem?_eq_some_iff.mp found).1
          -- This name is bound, so the one whose index leads too far is among the others.
          have later : ∃ entry ∈ positions ((name, index) :: bound) rest,
              accounts.length ≤ entry.2 := by
            obtain ⟨entry, member, beyond⟩ := astray
            rcases List.mem_cons.mp member with rfl | member
            · exact absurd within (Nat.not_lt.mpr beyond)
            · exact ⟨entry, member, beyond⟩
          obtain ⟨other, position, member, failed⟩ := ih (stands.addSigner found name) later
          exact ⟨other, position, List.mem_cons_of_mem _ member, failed⟩

theorem addAliases_eq_ok (stands : Stands accounts bound context)
    (lead : ∀ entry ∈ positions bound entries, entry.2 < accounts.length) :
    ∃ after, addAliases total context entries = .ok after := by
  induction entries generalizing bound context with
  | nil => exact ⟨context, rfl⟩
  | cons entry rest ih =>
      obtain ⟨name, index⟩ := entry
      have within : followed bound index < accounts.length := lead _ List.mem_cons_self
      have found := stands index
      rw [List.getElem?_eq_getElem within] at found
      obtain ⟨after, added⟩ := ih (stands.addSigner found name) fun entry member =>
        lead entry (List.mem_cons_of_mem _ member)
      refine ⟨after, ?_⟩
      rw [addAliases, found]
      exact added

theorem get?_addAliases_of_notMem {after : Context} {name : String}
    (added : addAliases total context entries = .ok after) (absent : name ∉ entries.map Prod.fst) :
    after.signers.get? name = context.signers.get? name := by
  induction entries generalizing context with
  | nil =>
      cases added
      rfl
  | cons entry rest ih =>
      rw [List.map_cons, List.mem_cons, not_or] at absent
      rw [addAliases] at added
      split at added
      · contradiction
      · rw [ih added absent.2, Context.get?_addSigner, if_neg (Ne.symm absent.1)]

theorem names_positions (bound entries : List (String × Nat)) :
    (positions bound entries).map Prod.fst = entries.map Prod.fst := by
  induction entries generalizing bound with
  | nil => rfl
  | cons entry rest ih => rw [positions, List.map_cons, ih, List.map_cons]

theorem get?_addAliases {after : Context} (stands : Stands accounts bound context)
    (distinct : (entries.map Prod.fst).Nodup)
    (added : addAliases total context entries = .ok after) :
    ∀ entry ∈ positions bound entries, ∃ address, accounts[entry.2]? = some address ∧
      after.signers.get? entry.1 = some address := by
  induction entries generalizing bound context with
  | nil => simp [positions]
  | cons entry rest ih =>
      obtain ⟨name, index⟩ := entry
      rw [List.map_cons, List.nodup_cons] at distinct
      rw [addAliases] at added
      split at added
      · contradiction
      · next address found =>
        intro entry member
        rcases List.mem_cons.mp member with rfl | member
        · -- The names behind this one are others, so what it stands for is kept.
          refine ⟨address, by rw [← stands index, found], ?_⟩
          rw [get?_addAliases_of_notMem added distinct.1, Context.get?_addSigner, if_pos rfl]
        · exact ih (stands.addSigner found name) distinct.2 added entry member

end

def bindSigners (plan : SetupPlan) (accounts : List Address) : Except RunError Context :=
  addAliases (withAccounts accounts).signers.length (withAccounts accounts) plan.signers

/-- The names of a plan are bound to the accounts at given positions: the stage is refused just
when one of these is beyond the accounts, and else each name stands for the account at its own. -/
structure BindsTo (plan : SetupPlan) (accounts : List Address)
    (places : List (String × Nat)) : Prop where
  refused : (∃ place ∈ places, accounts.length ≤ place.2) ↔
    ∃ name index, (name, index) ∈ plan.signers ∧ bindSigners plan accounts =
      .error (.configuration (.signerIndex name index accounts.length))
  bound : (∀ place ∈ places, place.2 < accounts.length) →
    ∃ context, bindSigners plan accounts = .ok context ∧ ∀ place ∈ places,
      ∃ address, accounts[place.2]? = some address ∧ context.signer place.1 = .ok address

theorem bindsTo_positions {plan : SetupPlan} (accounts : List Address)
    (distinct : plan.signers.names.Nodup) :
    BindsTo plan accounts (positions [] plan.signers) := by
  have numbers := numbers_withAccounts accounts
  have stands : Stands accounts [] (withAccounts accounts) := numbers.get?
  have succeeds : (∀ place ∈ positions [] plan.signers, place.2 < accounts.length) →
      ∃ context, bindSigners plan accounts = .ok context := addAliases_eq_ok stands
  constructor
  · constructor
    · intro astray
      rw [bindSigners, numbers.length]
      exact addAliases_eq_error stands astray
    · rintro ⟨name, index, -, failed⟩
      by_contra within
      obtain ⟨context, added⟩ := succeeds fun place member =>
        Nat.lt_of_not_le fun beyond => within ⟨place, member, beyond⟩
      rw [added] at failed
      contradiction
  · intro within
    obtain ⟨context, added⟩ := succeeds within
    refine ⟨context, added, fun place member => ?_⟩
    obtain ⟨address, known, found⟩ := get?_addAliases stands distinct added place member
    exact ⟨address, known, Context.signer_of_get? found⟩

/-! What the stages behind it make of the signers. -/

theorem setDefaultSigner_eq_ok {context after : Context} {name : String} :
    context.setDefaultSigner name = .ok after ↔
      context.signers.contains name = true ∧
        { context with defaultSigner := some name } = after := by
  unfold Context.setDefaultSigner
  split
  · next known => simp [known]
  · next unknown => simp [unknown]

theorem signers_setDefaultSigner {context after : Context} {name : String}
    (set : context.setDefaultSigner name = .ok after) : after.signers = context.signers := by
  obtain ⟨-, rfl⟩ := setDefaultSigner_eq_ok.mp set
  rfl

theorem signers_attachAll {store : Option Store} {network : String} {context after : Context}
    {entries : List Attachment} (attached : attachAll store network context entries = .ok after) :
    after.signers = context.signers := by
  induction entries generalizing context with
  | nil =>
      cases attached
      rfl
  | cons entry rest ih =>
      simp only [attachAll, bind_eq_ok] at attached
      obtain ⟨handle, -, attached⟩ := attached
      rw [ih attached, Context.signers_insertContract]

theorem bind_eq_error {plan : SetupPlan} {accounts : List Address} {e : RunError}
    (refused : bindSigners plan accounts = .error e) (store : Option Store) (network : String) :
    Setup.bind plan store network accounts = .error e := by
  unfold Setup.bind
  change (bindSigners plan accounts >>= _) = _
  rw [refused]
  rfl

theorem stages_of_bind {plan : SetupPlan} {store : Option Store} {network : String}
    {accounts : List Address} {context : Context}
    (bound : Setup.bind plan store network accounts = .ok context) :
    ∃ named chosen : Context, bindSigners plan accounts = .ok named ∧
      (chosen = named ∨ ∃ name, named.setDefaultSigner name = .ok chosen) ∧
      attachAll store network (chosen.addMetadata "network" (.string network)) plan.attach =
        .ok context := by
  obtain ⟨named, added, rest⟩ := bind_eq_ok.mp bound
  split at rest
  · obtain ⟨chosen, set, attached⟩ := bind_eq_ok.mp rest
    exact ⟨named, chosen, added, .inr ⟨_, set⟩, attached⟩
  · exact ⟨named, named, added, .inl rfl, rest⟩

theorem signers_of_bind {plan : SetupPlan} {store : Option Store} {network : String}
    {accounts : List Address} {context : Context}
    (bound : Setup.bind plan store network accounts = .ok context) :
    ∃ named, bindSigners plan accounts = .ok named ∧ context.signers = named.signers := by
  obtain ⟨named, chosen, added, choice, attached⟩ := stages_of_bind bound
  have same : chosen.signers = named.signers := by
    rcases choice with rfl | ⟨name, set⟩
    · rfl
    · exact signers_setDefaultSigner set
  have kept := signers_attachAll attached
  exact ⟨named, added, kept.trans same⟩

/-- The names of a plan are bound to the accounts that their indices lead to, which are those at
their positions as long as no name is taken from another account. What is bound stays so in the
rest of the setup, and what is refused refuses the setup. -/
theorem aliases_bound_where_led {plan : SetupPlan} (accounts : List Address)
    (distinct : plan.signers.names.Nodup) :
    (positions [] plan.signers).map Prod.fst = plan.signers.names ∧
      BindsTo plan accounts (positions [] plan.signers) ∧
      (Plain plan.signers → BindsTo plan accounts plan.signers) ∧
      ∀ store network, (∀ e, bindSigners plan accounts = .error e →
          Setup.bind plan store network accounts = .error e) ∧
        ∀ context, Setup.bind plan store network accounts = .ok context →
          ∃ named, bindSigners plan accounts = .ok named ∧ context.signers = named.signers := by
  have led := bindsTo_positions accounts distinct
  refine ⟨names_positions [] plan.signers, led, fun plain => ?_, fun store network =>
    ⟨fun e refused => bind_eq_error refused store network, fun context => signers_of_bind⟩⟩
  have direct : positions [] plan.signers = plan.signers := by
    refine Plain.positions ?_
    intro index target member
    rw [List.append_nil, List.mem_reverse] at member
    exact plain index target member
  rwa [direct] at led

def naming (signers : Mapping Nat) : SetupPlan := ⟨signers, none, [], []⟩

def owners : List Address := [.ofLow 1, .ofLow 2]

theorem aliases_bound_of_takeover :
    BindsTo (naming [("signer0", 1), ("zed", 0)]) owners [("signer0", 1), ("zed", 1)] ∧
      ∃ context, bindSigners (naming [("signer0", 1), ("zed", 0)]) owners = .ok context ∧
        context.signer "zed" = .ok (.ofLow 2) := by
  have distinct : (naming [("signer0", 1), ("zed", 0)]).signers.names.Nodup := by decide
  obtain ⟨-, led, -, -⟩ := aliases_bound_where_led owners distinct
  have leads : positions [] (naming [("signer0", 1), ("zed", 0)]).signers =
      [("signer0", 1), ("zed", 1)] := by rfl
  rw [leads] at led
  obtain ⟨context, named, each⟩ := led.bound (by decide)
  obtain ⟨address, known, found⟩ := each ("zed", 1) (by decide)
  cases known
  exact ⟨led, context, named, found⟩

theorem account_taken_over :
    ¬BindsTo (naming [("signer0", 1), ("zed", 0)]) owners [("signer0", 1), ("zed", 0)] ∧
      ¬BindsTo (naming [("signer7", 0), ("zed", 7)]) owners [("signer7", 0), ("zed", 7)] := by
  constructor
  · intro binds
    obtain ⟨context, named, each⟩ := binds.bound (by decide)
    obtain ⟨address, known, found⟩ := each ("zed", 0) (by decide)
    cases named
    cases known
    cases found
  · intro binds
    obtain ⟨name, index, -, refused⟩ := binds.refused.mp ⟨("zed", 7), by decide, by decide⟩
    cases refused

end Setup

end Rehearsal
