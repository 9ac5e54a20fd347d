import Keyring.Proofs.Keystore.Changes
import Keyring.Proofs.Manager.Files

/-!
# Files that no call touches

A directory of keyfiles may hold anything else, and keyfiles whose names tell another account than the keys
in them. Whatever it holds, each call does to the files what is allowed to it and nothing more, also where
it fails (`Call.Touches`): it looks, it makes one keyfile, it takes away files whose names tell its account,
or it does one after the other. A file whose name tells no account is therefore as it was after any call
(`Manager.foreign_untouched`) and after any run of calls (`Manager.foreign_final`).
-/

namespace Keyring

open Directory (MayAdd Removed)
open Keyfile (addressIn? entryName)

/-- What a call may do to the files. Creating and importing make a keyfile under a canonical name that is
free, deleting takes away files whose names tell the account, and a new password does this first and that
then. The other calls leave the files alone. -/
def Call.Touches (place : Place) (before after : Disk) : Call → Prop
  | create .. | importKeyfile .. | importFile .. | importSecret .. => MayAdd place before after
  | delete address => Removed place address before after
  | update address .. => ∃ between, Removed place address before between ∧ MayAdd place between after
  | _ => after = before

namespace Call

variable {call : Call} {place : Place} {before after : Disk}

/-- A call that leaves the directory as it is touches nothing. -/
theorem Touches.of_eq (h : after = before) : call.Touches place before after := by
  subst h
  cases call with
  | create | importKeyfile | importFile | importSecret => exact .inl rfl
  | delete address => exact .refl _ _ _
  | update address password newPassword fresh => exact ⟨after, .refl _ _ _, .inl rfl⟩
  | _ => rfl

/-- Whatever is touched, it has a name in the directory that tells an account. -/
theorem Touches.get?_eq (h : call.Touches place before after) {other : Place}
    (hother : ∀ name address, other = name :: place → addressIn? name ≠ some address) :
    after.get? other = before.get? other := by
  cases call with
  | create | importKeyfile | importFile | importSecret => exact MayAdd.get?_eq h hother
  | delete address => exact Removed.get?_eq h fun name heq => hother name address heq
  | update address password newPassword fresh =>
    obtain ⟨between, hremoved, hadd⟩ := h
    rw [hadd.get?_eq hother, hremoved.get?_eq fun name heq => hother name address heq]
  | _ =>
    cases h
    rfl

/-- Paths lead to the directories that they led to. -/
theorem Touches.leadsTo (h : call.Touches place before after) {p : Path} {target : Place}
    (hleads : before.LeadsTo p target) : after.LeadsTo p target := by
  cases call with
  | create | importKeyfile | importFile | importSecret => exact MayAdd.leadsTo h hleads
  | delete address => exact Removed.leadsTo h hleads
  | update address password newPassword fresh =>
    obtain ⟨between, hremoved, hadd⟩ := h
    exact hadd.leadsTo (hremoved.leadsTo hleads)
  | _ =>
    cases h
    exact hleads

end Call

namespace Manager

variable {directory : Directory} {iterations : UInt32} {signer : Signer} {place : Place}
  {session : Session Disk}

/-- A call whose operation has an effect touches what the effect does. -/
theorem touches_of_effect {α : Type} {x : SessionAction Disk α} {effect : Effect α} {call : Call}
    (heffect : SessionAction.HasEffect x session effect) (f : α → Answer)
    (h : call.Touches place session.traced.files effect.2) :
    call.Touches place session.traced.files
      (leaves (f <$> x : SessionAction Disk Answer) session).traced.files := by
  obtain ⟨-, hfiles⟩ := heffect.map f
  rw [hfiles]
  exact h

/-- Importing someone's keyfile makes one keyfile or none. -/
theorem mayAdd_importKeyfile (hleads : session.traced.files.LeadsTo directory.path place)
    (content : Bytes) (password newPassword : String) (fresh : Seal) :
    MayAdd place session.traced.files
      (leaves (Answer.imported <$> (directory.manager iterations signer).importKeyfile content password
        newPassword fresh : SessionAction Disk Answer) session).traced.files := by
  obtain ⟨-, hfiles⟩ := (hasEffect_importKeyfile hleads content password newPassword fresh).map
    Answer.imported
  rw [hfiles]
  cases Keyfile.decode content password with
  | ok key => exact Directory.mayAdd_imported iterations hleads key newPassword fresh
  | error cause => exact .inl rfl

/-- A call touches nothing else, whether it succeeds or not. -/
theorem touches_perform (iterations : UInt32) (signer : Signer)
    (hleads : session.traced.files.LeadsTo directory.path place) (now : Instant) (call : Call) :
    call.Touches place session.traced.files
      (leaves ((directory.manager iterations signer).perform now call) session).traced.files := by
  cases hchanges : call.changesFiles with
  | false => exact .of_eq (keepsFiles_perform hleads now hchanges session rfl)
  | true =>
    cases call with
    | create key password fresh =>
      rw [perform]
      refine touches_of_effect (hasEffect_create _ _ _ _ key password fresh) .created ?_
      exact Directory.mayAdd_persisted iterations hleads key password fresh
    | delete address =>
      rw [perform]
      refine touches_of_effect (hasEffect_delete now hleads address) .told ?_
      exact Directory.removed_deleted hleads address
    | update address password newPassword fresh =>
      rw [perform]
      refine touches_of_effect (hasEffect_update hleads address password newPassword fresh) .told ?_
      exact Directory.removed_updated iterations hleads address password newPassword fresh
    | importKeyfile content password newPassword fresh =>
      rw [perform]
      exact mayAdd_importKeyfile hleads content password newPassword fresh
    | importFile disk path password newPassword fresh =>
      rw [perform, importFile]
      cases disk.read path with
      | error source => exact touches_of_effect (SessionAction.hasEffect_throw _ session) .imported (.inl rfl)
      | ok content => exact mayAdd_importKeyfile hleads content password newPassword fresh
    | importSecret secret password fresh =>
      rw [perform, importSecret]
      cases KeyPair.ofText? secret with
      | none => exact touches_of_effect (SessionAction.hasEffect_throw _ session) .imported (.inl rfl)
      | some key =>
        refine touches_of_effect (hasEffect_importKey hleads key password fresh) .imported ?_
        exact Directory.mayAdd_imported iterations hleads key password fresh
    | _ => cases hchanges

/-- After a run that nobody disturbs the directory is where it was, and so is everything that has no name in
it that tells an account. -/
theorem foreign_final (hleads : session.traced.files.LeadsTo directory.path place)
    {turns : List (Turn Disk)} (houtside : ∀ turn ∈ turns, turn.outside = id) :
    ((directory.manager iterations signer).final session turns).traced.files.LeadsTo directory.path place ∧
    ∀ other, (∀ name address, other = name :: place → addressIn? name ≠ some address) →
      ((directory.manager iterations signer).final session turns).traced.files.get? other =
        session.traced.files.get? other := by
  induction turns generalizing session with
  | nil => exact ⟨hleads, fun _ _ => rfl⟩
  | cons turn turns ih =>
    obtain ⟨outside, now, call⟩ := turn
    have hid : outside = id := houtside _ List.mem_cons_self
    subst hid
    have htouches := touches_perform iterations signer hleads now call
    obtain ⟨hfinal, hrest⟩ := ih (htouches.leadsTo hleads) fun turn hturn =>
      houtside turn (List.mem_cons_of_mem _ hturn)
    refine ⟨hfinal, fun other hother => ?_⟩
    rw [final, take_undisturbed, hrest other hother]
    exact htouches.get?_eq hother

/-- A call does to the files what it may do and nothing else, whether it succeeds or not and whatever is in
the directory. What has no name in the directory that tells an account is touched by no call at all. The
unlocked accounts stay as they are when an unlock does not succeed and when a password is changed or fails
to be. -/
theorem foreign_untouched (directory : Directory) (iterations : UInt32) (signer : Signer)
    {manager : Manager Disk} (hmanager : manager = directory.manager iterations signer)
    {session : Session Disk} {place : Place} (hleads : session.traced.files.LeadsTo directory.path place)
    (now : Instant) (call : Call) {left : Session Disk}
    (hleft : left = leaves (manager.perform now call) session) :
    call.Touches place session.traced.files left.traced.files ∧
    (∀ other, (∀ name address, other = name :: place → addressIn? name ≠ some address) →
      left.traced.files.get? other = session.traced.files.get? other) ∧
    (∀ address password timeout, call = .unlock address password timeout →
      answer (manager.perform now call) session ≠ .ok (.told true) → left.unlocked = session.unlocked) ∧
    ∀ address password newPassword fresh, call = .update address password newPassword fresh →
      left.unlocked = session.unlocked := by
  subst hmanager hleft
  have htouches := touches_perform iterations signer hleads now call
  refine ⟨htouches, fun other hother => htouches.get?_eq hother,
    fun address password timeout hcall hfails => ?_, fun address password newPassword fresh hcall => ?_⟩
  · subst hcall
    rw [perform, answer_map] at hfails
    rw [perform, leaves_map]
    refine (unlock_of_not_ok now timeout fun key hload => hfails ?_).2
    rw [(unlock_ok now timeout hload).1]
    rfl
  · subst hcall
    exact KeepsUnlocked.map _ (.onFiles _) session

end Manager

/-! ### A copy of a keyfile under another account's name -/

namespace Disk

/-- The sample directory with a keyfile and a copy of it that has another account's name. -/
def copied : Disk :=
  let node := Node.file Directory.keyfileMode (Keyfile.encode .one "p" 1 .zero)
  (Disk.sample.put (entryName KeyPair.one.address :: [[0x6b]]) node).put (entryName .zero :: [[0x6b]]) node

/-- There is something under the name of the account that the copy opens to. -/
theorem copied_entries : copied.LeadsTo Directory.sample.path [[0x6b]] ∧
    ∃ node, copied.get? (entryName KeyPair.one.address :: [[0x6b]]) = some node := by
  have hleads := sample_leadsTo
  have hnone := get?_sample
  have hne := KeyPair.address_one_ne
  unfold copied
  generalize Node.file Directory.keyfileMode (Keyfile.encode .one "p" 1 .zero) = node
  generalize KeyPair.one.address = own at hne ⊢
  generalize Disk.sample = disk at hleads hnone ⊢
  have hplace := Keyfile.entryName_cons_ne hne.symm [[0x6b]]
  have hput := hleads.put (List.cons_ne_nil _ _) (hnone (entryName own)) node
  have hfree : (disk.put (entryName own :: [[0x6b]]) node).get? (entryName .zero :: [[0x6b]]) = none := by
    rw [get?_put_of_ne hplace, hnone]
  refine ⟨hput.put (List.cons_ne_nil _ _) hfree node, node, ?_⟩
  rw [get?_put_of_ne (Ne.symm hplace), get?_put_self]

end Disk

namespace Manager

/-- The keyfile that stands in the way of a new password is as it was after the password is not set. -/
theorem foreign_untouched_copied :
    (leaves ((Directory.sample.manager 1 .ecdsa).perform 0 (.update .zero "p" "q" .zero))
        (.opened ⟨.copied, []⟩)).traced.files.get? (entryName KeyPair.one.address :: [[0x6b]]) =
      Disk.copied.get? (entryName KeyPair.one.address :: [[0x6b]]) := by
  obtain ⟨hleads, node, htaken⟩ := Disk.copied_entries
  have hne := KeyPair.address_one_ne
  generalize KeyPair.one.address = own at hne htaken ⊢
  generalize Disk.copied = disk at hleads htaken ⊢
  have hopened : (Session.opened ⟨disk, []⟩ : Session Disk).traced.files.LeadsTo Directory.sample.path
      [[0x6b]] := hleads
  obtain ⟨⟨between, hremoved, hadd⟩, -⟩ := foreign_untouched Directory.sample 1 .ecdsa rfl hopened 0
    (.update .zero "p" "q" .zero) rfl
  have hbetween : between.get? (entryName own :: [[0x6b]]) = some node := by
    rw [hremoved.get?_eq, ← htaken]
    · rfl
    · rintro name heq htells
      injection heq with heq
      rw [← heq, Keyfile.addressIn?_entryName] at htells
      exact hne (Option.some.inj htells)
  rw [hadd.get?_of_some hbetween, htaken]

end Manager

end Keyring
