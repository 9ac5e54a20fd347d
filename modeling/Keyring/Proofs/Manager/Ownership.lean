import Keyring.Proofs.Keystore.Faithful
import Keyring.Proofs.Manager.Ledger
import Keyring.Proofs.Manager.Unlocking

/-!
# Whose keys a manager hands out

As long as the keyfile that is found for each account that is asked for is this account's
(`Directory.Faithful`), all keys that a run hands out, keeps at hand and signs with are those of the
accounts that they were asked for, and no other account's keyfile is touched. That is all that it
depends on: once the keyfile that is found for an account opens to another one's key, every way to get at
the account's key gives that one (`Manager.own_iff_faithful`).
-/

namespace Keyring

open Keyfile (addressIn? entryName)

/-! ## Calls that need a key -/

/-- The account whose key pair a call needs. -/
def Call.account? : Call → Option Address
  | exportKey address _ | update address _ _ _ | unlock address _ _ | resolveKey address _
  | signMessage address _ _ _ | signTransaction address _ _ => some address
  | _ => none

/-- Every key at hand is that of its account. -/
def UnlockRegistry.Own (registry : UnlockRegistry) : Prop :=
  ∀ address unlock, registry.entries.get? address = some unlock → unlock.key.address = address

/-- What a call gives and does for an account is done with the account's own key: it is handed out, kept
at hand or signed with, and no keyfile of another account is touched. -/
def Entry.Own (directory : Directory) (signer : Signer) (e : Entry Disk) : Prop :=
  match e.call with
  | .exportKey address _ => ∀ key, e.reply = .ok (.exported (some key)) → key.address = address
  | .unlock address _ _ => e.reply = .ok (.told true) →
    ∃ unlock, e.after.unlocked.entries.get? address = some unlock ∧ unlock.key.address = address
  | .resolveKey address _ => ∀ key, e.reply = .ok (.resolved key) → key.address = address
  | .signMessage address _ message hashFirst => ∀ text, e.reply = .ok (.signedMessage text) →
    ∃ key sig, key.address = address ∧ signer.sign message key hashFirst = .ok sig ∧
      text = "0x" ++ Hex.text sig.toBytes
  | .signTransaction address _ tx => ∀ bytes, e.reply = .ok (.signedTransaction bytes) →
    ∃ key sig, key.address = address ∧ signer.sign tx.digest.toBytes key false = .ok sig ∧
      bytes = tx.signed sig
  | .update address _ _ _ => ∀ other,
    e.after.traced.files.get? other ≠ e.before.traced.files.get? other →
    ∃ place name, e.before.traced.files.LeadsTo directory.path place ∧ other = name :: place ∧
      addressIn? name = some address
  | _ => True

namespace Manager

open SessionAction (onFiles onUnlocked)

/-! ## Where a resolved key comes from -/

section
variable {σ : Type} {manager : Manager σ} {session : Session σ} {now : Instant} {address : Address}
  {password : Option String} {key : KeyPair}

/-- A key that is resolved was at hand or is loaded from the files with the password, which is not empty. -/
theorem of_answer_resolveKey
    (h : answer (manager.resolveKey now address password) session = .ok key) :
    (session.unlocked.lookup now address).1 = .unlocked key ∨
      ∃ given traced, password.filter (· ≠ "") = some given ∧ traced.files = session.traced.files ∧
        answer (manager.keystore.load address given) traced = .ok (some key) := by
  unfold resolveKey at h
  rw [answer_bind_ok (SessionAction.answer_onUnlocked _ _), SessionAction.leaves_onUnlocked] at h
  generalize (session.unlocked.lookup now address).1 = found at h ⊢
  generalize password.filter (· ≠ "") = given at h ⊢
  cases found with
  | unlocked k =>
    cases h
    exact .inl rfl
  | absent | expired =>
    cases given with
    | none => cases h
    | some given =>
      obtain ⟨-, -, h⟩ := of_answer_bind h
      obtain ⟨loaded, hloaded, h⟩ := of_answer_bind h
      rw [SessionAction.answer_onFiles] at hloaded
      cases loaded with
      | none => cases h
      | some k =>
        cases h
        refine .inr ⟨given, _, rfl, ?_, hloaded⟩
        rfl

/-- What is signed is signed with the key that is resolved. -/
theorem of_answer_sign {message : Bytes} {hashFirst : Bool} {sig : Signature}
    (h : answer (manager.sign now address password message hashFirst) session = .ok sig) :
    ∃ key, answer (manager.resolveKey now address password) session = .ok key ∧
      manager.signer.sign message key hashFirst = .ok sig := by
  unfold sign at h
  obtain ⟨key, hkey, h⟩ := of_answer_bind h
  refine ⟨key, hkey, ?_⟩
  split at h
  · next heq => cases h; exact heq
  · cases h

/-- A key that a password loads is resolved with the password, unless there is one at hand. -/
theorem answer_resolveKey_some {given : String} (hgiven : given ≠ "")
    (hlookup : ∀ k, (session.unlocked.lookup now address).1 ≠ .unlocked k)
    (hload : ∀ traced, traced.files = session.traced.files →
      answer (manager.keystore.load address given) traced = .ok (some key)) :
    answer (manager.resolveKey now address (some given)) session = .ok key := by
  have hfilter : (some given).filter (· ≠ "") = some given := by simp [hgiven]
  unfold resolveKey
  rw [hfilter, answer_bind_ok (SessionAction.answer_onUnlocked _ _)]
  generalize (session.unlocked.lookup now address).1 = found at hlookup ⊢
  rw [SessionAction.leaves_onUnlocked]
  cases found with
  | unlocked k => exact absurd rfl (hlookup k)
  | absent | expired =>
    simp only
    rw [answer_bind_ok (show answer (onFiles (Action.note (.singleUse address))) _ = .ok () from rfl)]
    have hloaded : answer (onFiles (manager.keystore.load address given)) (leaves (onFiles
        (Action.note (.singleUse address))) ⟨session.traced, (session.unlocked.lookup now address).2⟩) =
          .ok (some key) := by
      rw [SessionAction.answer_onFiles]
      exact hload _ rfl
    rw [answer_bind_ok hloaded]
    rfl

/-- After an unlock without a timeout the key that was loaded is at hand at any time. -/
theorem answer_resolveKey_unlocked {given : String}
    (hload : answer (manager.keystore.load address given) session.traced = .ok (some key))
    (now later : Instant) :
    answer (manager.resolveKey later address none)
      (leaves (manager.unlock now address given none) session) = .ok key := by
  obtain ⟨-, hunlocked⟩ := unlock_ok now none hload
  rw [answer_resolveKey_iff (.inl rfl), hunlocked, UnlockRegistry.lookup_unlocked_iff]
  exact ⟨⟨key, none⟩, by rw [UnlockRegistry.get?_insert, if_pos rfl]; rfl, rfl, rfl⟩

/-- A key that is resolved signs. -/
theorem answer_sign {message : Bytes} {hashFirst : Bool}
    (h : answer (manager.resolveKey now address password) session = .ok key) :
    answer (manager.sign now address password message hashFirst) session =
      manager.signer.sign message key hashFirst := by
  unfold sign
  rw [answer_bind_ok h]
  cases manager.signer.sign message key hashFirst <;> rfl

end

/-! ## Faithful directories -/

section
variable {directory : Directory} {iterations : UInt32} {signer : Signer} {session : Session Disk}
  {now : Instant} {address : Address} {key : KeyPair}

/-- A key pair that is loaded from a faithful directory is the account's own. -/
theorem address_of_load {traced : Traced Disk} {password : String}
    (hfaithful : directory.Faithful traced.files address)
    (h : answer ((directory.manager iterations signer).keystore.load address password) traced =
      .ok (some key)) : key.address = address := by
  obtain ⟨content, hholds, hdecode⟩ := Directory.loads_iff.1 h
  exact hfaithful content hholds password key hdecode

/-- So is one that is resolved, if those at hand are. -/
theorem address_of_resolveKey {password : Option String} (hown : session.unlocked.Own)
    (hfaithful : directory.Faithful session.traced.files address)
    (h : answer ((directory.manager iterations signer).resolveKey now address password) session =
      .ok key) : key.address = address := by
  rcases of_answer_resolveKey h with hlookup | ⟨given, traced, -, hfiles, hload⟩
  · obtain ⟨unlock, hget, -, rfl⟩ := UnlockRegistry.lookup_unlocked_iff.1 hlookup
    exact hown address unlock hget
  · rw [← hfiles] at hfaithful
    exact address_of_load hfaithful hload

/-- What is signed is signed with the account's key. -/
theorem address_of_sign {password : Option String} {message : Bytes} {hashFirst : Bool}
    {sig : Signature} (hown : session.unlocked.Own)
    (hfaithful : directory.Faithful session.traced.files address)
    (h : answer ((directory.manager iterations signer).sign now address password message hashFirst)
      session = .ok sig) :
    ∃ key, key.address = address ∧ signer.sign message key hashFirst = .ok sig := by
  obtain ⟨key, hkey, hsig⟩ := of_answer_sign h
  exact ⟨key, address_of_resolveKey hown hfaithful hkey, hsig⟩

/-- A new password touches keyfiles of the account alone. -/
theorem files_update (hfaithful : directory.Faithful session.traced.files address)
    (password newPassword : String) (fresh : Seal) (other : Place)
    (hchanged : (leaves ((directory.manager iterations signer).update address password newPassword
      fresh) session).traced.files.get? other ≠ session.traced.files.get? other) :
    ∃ place name, session.traced.files.LeadsTo directory.path place ∧ other = name :: place ∧
      addressIn? name = some address := by
  by_cases hleads : ∃ place, session.traced.files.LeadsTo directory.path place
  · obtain ⟨place, hleads⟩ := hleads
    have heffect : SessionAction.HasEffect ((directory.manager iterations signer).update address password
        newPassword fresh) session _ := hasEffect_update hleads address password newPassword fresh
    rw [heffect.2] at hchanged
    obtain ⟨name, hplace, htells⟩ := Directory.get?_updated hleads hchanged
    refine ⟨place, name, hleads, hplace, ?_⟩
    rcases htells with htells | ⟨content, key, hholds, hdecode, hname⟩
    · exact htells
    · rw [hname, ← hfaithful content hholds password key hdecode]
      exact Keyfile.addressIn?_entryName key.address
  · obtain ⟨result, -, hupdate⟩ := Directory.yields_update_nowhere iterations
      (fun place h => hleads ⟨place, h⟩) address password newPassword fresh
    exact absurd (congrArg (fun disk : Disk => disk.get? other)
      (SessionAction.files_of_yields hupdate)) hchanged

/-- A call is done with the account's own key if the keyfile that is found is the account's. -/
theorem own_take {turn : Turn Disk} (hown : session.unlocked.Own)
    (hfaithful : ∀ address, turn.call.account? = some address →
      directory.Faithful (turn.outside session.traced.files) address) :
    ((directory.manager iterations signer).take session turn).Own directory signer := by
  obtain ⟨outside, now, call⟩ := turn
  have hown : (session.outside outside).unlocked.Own := hown
  have hfaithful : ∀ address, call.account? = some address →
      directory.Faithful (session.outside outside).traced.files address := hfaithful
  unfold take
  generalize session.outside outside = session at hown hfaithful
  cases call with
  | exportKey address password =>
    intro key hreply
    rw [perform] at hreply
    obtain ⟨found, hfound, ⟨⟩⟩ := of_answer_map hreply
    rw [exportKey, SessionAction.answer_onFiles] at hfound
    exact address_of_load (hfaithful address rfl) hfound
  | unlock address password timeout =>
    intro hreply
    rw [perform] at hreply
    obtain ⟨found, hfound, ⟨⟩⟩ := of_answer_map hreply
    by_cases hload : ∃ key, answer ((directory.manager iterations signer).keystore.load address password)
        session.traced = .ok (some key)
    · obtain ⟨key, hload⟩ := hload
      obtain ⟨-, hunlocked⟩ := unlock_ok now timeout hload
      refine ⟨⟨key, deadline? now timeout⟩, ?_, address_of_load (hfaithful address rfl) hload⟩
      rw [perform, leaves_map, hunlocked, UnlockRegistry.get?_insert, if_pos rfl]
    · obtain ⟨hnot, -⟩ := unlock_of_not_ok now timeout fun key hkey => hload ⟨key, hkey⟩
      exact absurd hfound hnot
  | resolveKey address password =>
    intro key hreply
    rw [perform] at hreply
    obtain ⟨found, hfound, ⟨⟩⟩ := of_answer_map hreply
    exact address_of_resolveKey hown (hfaithful address rfl) hfound
  | signMessage address password message hashFirst =>
    intro text hreply
    rw [perform] at hreply
    obtain ⟨found, hfound, ⟨⟩⟩ := of_answer_map hreply
    obtain ⟨sig, hsign, htext⟩ := of_answer_bind hfound
    cases htext
    obtain ⟨key, hkey, hsig⟩ := address_of_sign hown (hfaithful address rfl) hsign
    exact ⟨key, sig, hkey, hsig, rfl⟩
  | signTransaction address password tx =>
    intro bytes hreply
    rw [perform] at hreply
    obtain ⟨found, hfound, ⟨⟩⟩ := of_answer_map hreply
    obtain ⟨sig, hsign, hbytes⟩ := of_answer_bind hfound
    cases hbytes
    obtain ⟨key, hkey, hsig⟩ := address_of_sign hown (hfaithful address rfl) hsign
    exact ⟨key, sig, hkey, hsig, rfl⟩
  | update address password newPassword fresh =>
    intro other hchanged
    rw [perform, leaves_map] at hchanged
    exact files_update (hfaithful address rfl) password newPassword fresh other hchanged
  | _ => trivial

/-- All keys at hand stay those of their accounts. -/
theorem unlocked_own_take {turn : Turn Disk} (hown : session.unlocked.Own)
    (hfaithful : ∀ address, turn.call.account? = some address →
      directory.Faithful (turn.outside session.traced.files) address) :
    ((directory.manager iterations signer).take session turn).after.unlocked.Own := by
  intro address unlock hget
  cases settles_take (directory.manager iterations signer) session turn address with
  | granted granted hgrant hafter =>
    rw [hafter] at hget
    cases hget
    obtain ⟨password, timeout, hcall, -, hload, -⟩ := hgrant
    have haccount : turn.call.account? = some address := by
      rw [show turn.call = .unlock address password timeout from hcall]
      rfl
    exact address_of_load (hfaithful address haccount) hload
  | revoked hrevokes hafter =>
    rw [hafter] at hget
    cases hget
  | kept hunlocks hrevokes hafter =>
    rw [hafter] at hget
    exact hown address unlock hget
  | dropped hunlocks hrevokes hfound hexpired hafter =>
    rw [hafter] at hget
    cases hget

/-- A run whose calls find their accounts' own keyfiles is done with the accounts' own keys. -/
theorem own_history {turns : List (Turn Disk)} (hown : session.unlocked.Own)
    (hfaithful : ∀ e ∈ (directory.manager iterations signer).history session turns,
      ∀ address, e.call.account? = some address →
        directory.Faithful e.before.traced.files address) :
    (∀ e ∈ (directory.manager iterations signer).history session turns, e.Own directory signer) ∧
      ((directory.manager iterations signer).final session turns).unlocked.Own := by
  induction turns generalizing session with
  | nil => exact ⟨fun e he => absurd he List.not_mem_nil, hown⟩
  | cons turn turns ih =>
    rw [history] at hfaithful ⊢
    have hfirst := hfaithful _ List.mem_cons_self
    obtain ⟨hlater, hfinal⟩ := ih (unlocked_own_take hown hfirst) fun e he =>
      hfaithful e (List.mem_cons_of_mem _ he)
    refine ⟨fun e he => ?_, hfinal⟩
    rcases List.mem_cons.1 he with rfl | he
    · exact own_take hown hfirst
    · exact hlater e he

/-- In a run that starts without keyfiles and that nobody disturbs each account's own keyfile is found. -/
theorem faithful_history {place : Place} {disk : Disk}
    (hleads : disk.LeadsTo directory.path place)
    (hempty : ∀ name ∈ disk.names place, addressIn? name = none) {turns : List (Turn Disk)}
    (houtside : ∀ turn ∈ turns, turn.outside = id) (events : List Event) :
    ∀ e ∈ (directory.manager iterations signer).history (.opened ⟨disk, events⟩) turns,
      ∀ address, directory.Faithful e.before.traced.files address := by
  intro e he address
  have hagrees : Agrees directory iterations place .empty
      (Session.opened ⟨disk, events⟩ : Session Disk).traced.files := agrees_empty hleads hempty
  obtain ⟨ledger, hagrees⟩ := agrees_history hagrees houtside e he
  exact Directory.faithful_of_agrees hagrees address

/-! ## Unfaithful directories -/

/-- What a new password does to the files where the keyfile that is found opens to another account's key
pair: if it succeeds, that account has a new keyfile, and the one that was asked for has none. -/
theorem files_update_of_ne {content : Bytes} {password newPassword : String} {fresh : Seal}
    (hholds : directory.Holds session.traced.files address content)
    (hdecode : Keyfile.decode content password = .ok key) (hne : key.address ≠ address)
    (hupdate : answer ((directory.manager iterations signer).update address password newPassword fresh)
      session = .ok true) :
    ∃ place, session.traced.files.LeadsTo directory.path place ∧
      (leaves ((directory.manager iterations signer).update address password newPassword fresh)
        session).traced.files.get? (entryName key.address :: place) =
          some (.file Directory.keyfileMode (Keyfile.encode key newPassword iterations fresh)) ∧
      ∀ name, addressIn? name = some address →
        (leaves ((directory.manager iterations signer).update address password newPassword fresh)
          session).traced.files.get? (name :: place) = none := by
  obtain ⟨place, name, others, hleads, hnames, hread⟩ := hholds
  have hholds : directory.Holds session.traced.files address content :=
    ⟨place, name, others, hleads, hnames, hread⟩
  have heffect : SessionAction.HasEffect ((directory.manager iterations signer).update address password
      newPassword fresh) session _ := hasEffect_update hleads address password newPassword fresh
  obtain ⟨content', found, hholds', hdecode', -, -, -, hput⟩ :=
    Directory.of_updated_ok hleads (heffect.eq_ok hupdate)
  cases hholds.unique hholds'
  rw [hdecode] at hdecode'
  cases hdecode'
  refine ⟨place, hleads, ?_, fun other hother => ?_⟩
  · rw [hput, Disk.get?_put_self]
  · have hplace : ¬ other :: place = entryName key.address :: place := by
      intro heq
      injection heq with heq
      rw [heq, Keyfile.addressIn?_entryName] at hother
      exact hne (Option.some.inj hother)
    rw [hput, Disk.get?_put_of_ne hplace, Directory.get?_without]
    split
    · rfl
    · next hnot =>
      cases hthere : session.traced.files.get? (other :: place) with
      | none => rfl
      | some node =>
        have hmem : other ∈ Directory.keyfiles session.traced.files place address :=
          Directory.mem_keyfiles_iff.2 ⟨by rw [hthere]; rfl, hother⟩
        exact absurd ⟨other, hmem, rfl⟩ hnot

end

/-- As long as the keyfile that is found for the account of each call opens only to key pairs of this
account, a run hands out, keeps at hand, signs with and writes the accounts' own keys alone. And as soon as
the keyfile that is found for an account opens to a key pair of another one, that key pair is exported for
the account, is at hand for it after an unlock, is resolved for it and signs for it, and if its password is
set anew, the keyfile that is written is the other account's. -/
theorem own_iff_faithful (directory : Directory) (iterations : UInt32) (signer : Signer)
    {manager : Manager Disk} (hmanager : manager = directory.manager iterations signer) :
    (∀ traced turns,
      (∀ e ∈ manager.history (.opened traced) turns, ∀ address, e.call.account? = some address →
        directory.Faithful e.before.traced.files address) →
      (∀ e ∈ manager.history (.opened traced) turns, e.Own directory signer) ∧
        (manager.final (.opened traced) turns).unlocked.Own) ∧
    ∀ session address, ¬ directory.Faithful session.traced.files address →
      ∃ password key, key.address ≠ address ∧
        answer (manager.exportKey address password) session = .ok (some key) ∧
        (∀ now, answer (manager.unlock now address password none) session = .ok true ∧
          ∀ later,
            answer (manager.resolveKey later address none)
              (leaves (manager.unlock now address password none) session) = .ok key ∧
            ∀ message hashFirst,
              answer (manager.sign later address none message hashFirst)
                (leaves (manager.unlock now address password none) session) =
                  signer.sign message key hashFirst) ∧
        (∀ now, password ≠ "" → (∀ k, (session.unlocked.lookup now address).1 ≠ .unlocked k) →
          answer (manager.resolveKey now address (some password)) session = .ok key ∧
          ∀ message hashFirst,
            answer (manager.sign now address (some password) message hashFirst) session =
              signer.sign message key hashFirst) ∧
        ∀ newPassword fresh,
          answer (manager.update address password newPassword fresh) session = .ok true →
          ∃ place, session.traced.files.LeadsTo directory.path place ∧
            (leaves (manager.update address password newPassword fresh) session).traced.files.get?
              (entryName key.address :: place) =
                some (.file Directory.keyfileMode (Keyfile.encode key newPassword iterations fresh)) ∧
            ∀ name, addressIn? name = some address →
              (leaves (manager.update address password newPassword fresh) session).traced.files.get?
                (name :: place) = none := by
  subst hmanager
  constructor
  · intro traced turns hfaithful
    have hown : (Session.opened traced).unlocked.Own := by
      intro address unlock hget
      cases hget
    exact own_history hown hfaithful
  · intro session address hnot
    obtain ⟨content, password, key, hholds, hdecode, hne⟩ := Directory.exists_of_not_faithful hnot
    have hload (traced : Traced Disk) (hfiles : traced.files = session.traced.files) :
        answer ((directory.manager iterations signer).keystore.load address password) traced =
          .ok (some key) := by
      rw [← hfiles] at hholds
      exact Directory.loads_iff.2 ⟨content, hholds, hdecode⟩
    refine ⟨password, key, hne, ?_, fun now => ⟨?_, fun later => ?_⟩, fun now hpassword hlookup => ?_,
      fun newPassword fresh hupdate => files_update_of_ne hholds hdecode hne hupdate⟩
    · rw [exportKey, SessionAction.answer_onFiles]
      exact hload _ rfl
    · exact (unlock_ok now none (hload _ rfl)).1
    · have hresolved := answer_resolveKey_unlocked (hload _ rfl) now later
      exact ⟨hresolved, fun message hashFirst => answer_sign hresolved⟩
    · have hresolved := answer_resolveKey_some hpassword hlookup hload
      exact ⟨hresolved, fun message hashFirst => answer_sign hresolved⟩

/-! ### A keyfile under another account's name -/

/-- The sample directory with a keyfile that has another account's name. -/
def renamed : Disk :=
  Disk.sample.put (entryName .zero :: [[0x6b]])
    (.file Directory.keyfileMode (Keyfile.encode .one "p" 1 .zero))

/-- The renamed keyfile is read for the account whose name it has. -/
theorem renamed_holds :
    Directory.sample.Holds renamed .zero (Keyfile.encode .one "p" 1 .zero) := by
  have hleads := Disk.sample_leadsTo
  have hnone := Disk.get?_sample (entryName .zero)
  have hfirst := Directory.keyfiles_sample .zero
  have hcheck := Directory.checkPath_sample .zero
  unfold renamed
  generalize Keyfile.encode .one "p" 1 .zero = content
  generalize Disk.sample = disk at hleads hnone hfirst ⊢
  have hput := hleads.put (List.cons_ne_nil _ _) hnone (.file Directory.keyfileMode content)
  have hkeyfiles : Directory.keyfiles (disk.put (entryName .zero :: [[0x6b]])
      (.file Directory.keyfileMode content)) [[0x6b]] .zero = [entryName .zero] :=
    Directory.keyfiles_put_of_nil hnone (Keyfile.addressIn?_entryName .zero) hfirst _
  refine ⟨[[0x6b]], entryName .zero, [], hput, hkeyfiles, ?_⟩
  rw [Disk.read_eq hput (Keyfile.plain_entryName .zero) hcheck, Disk.get?_put_self]

/-- The key pair of another account is exported, although its keyfile records that account. -/
theorem exportKey_renamed :
    answer ((Directory.sample.manager 1 .ecdsa).exportKey .zero "p") (.opened ⟨renamed, []⟩) =
      .ok (some .one) ∧ KeyPair.one.address ≠ .zero := by
  refine ⟨?_, KeyPair.address_one_ne⟩
  rw [exportKey, SessionAction.answer_onFiles]
  exact Directory.loads_iff.2
    ⟨_, renamed_holds, Keyfile.decode_encode .one "p" .zero (show Keyfile.Opens 1 by decide)⟩

/-- Both sides of the condition: an account that is created and then exported, and the renamed keyfile. -/
theorem own_iff_faithful_samples :
    (∀ e ∈ (Directory.sample.manager 1 .ecdsa).history (.opened ⟨.sample, []⟩)
        [⟨id, 0, .create .one "p" .zero⟩, ⟨id, 0, .exportKey KeyPair.one.address "p"⟩],
      e.Own Directory.sample .ecdsa) ∧
    ∃ password key, key.address ≠ .zero ∧
      answer ((Directory.sample.manager 1 .ecdsa).exportKey .zero password) (.opened ⟨renamed, []⟩) =
        .ok (some key) := by
  have hopens : Keyfile.Opens 1 := by decide
  have hnot : ¬ Directory.sample.Faithful renamed .zero := by
    intro hfaithful
    have haddress := hfaithful _ renamed_holds "p" .one (Keyfile.decode_encode .one "p" .zero hopens)
    exact KeyPair.address_one_ne haddress
  obtain ⟨hown, hother⟩ := own_iff_faithful Directory.sample 1 .ecdsa rfl
  generalize KeyPair.one = one
  obtain ⟨password, key, hne, hexport, -⟩ := hother (.opened ⟨renamed, []⟩) .zero hnot
  refine ⟨(hown ⟨.sample, []⟩ _ fun e he address haccount => ?_).1, password, key, hne, hexport⟩
  have hnames := Disk.names_sample
  refine faithful_history Disk.sample_leadsTo (by rw [hnames]; exact List.forall_mem_nil _) ?_ [] e he
    address
  intro turn hturn
  rcases List.mem_cons.1 hturn with rfl | hturn
  · rfl
  · rw [List.mem_singleton.1 hturn]

end Manager

end Keyring
