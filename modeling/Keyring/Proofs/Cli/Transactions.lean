import Keyring.Proofs.Address.Text
import Keyring.Proofs.Cli.Decimals
import Keyring.Proofs.Cli.Lines
import Keyring.Proofs.Cli.Runs
import Keyring.Proofs.Manager.Signing

/-!
# Transactions that are signed on the command line

A line tells a transaction by decimal numbers and hexadecimal digits, and leaves out what is as usual
(`Line.Tells`). Its arguments are this transaction (`Line.Tells.transaction_eq`), and a run with the password
of the sender's keyfile prints it with the key pair's signature, while a number that is too large is refused
(`run_signs_what_is_told`).
-/

namespace Keyring.Cli

open Rlp (Item)

/-! ## What a line tells -/

/-- What a transaction tells that calls an account: its numbers may have any size. -/
structure Transfer where
  nonce : Nat
  gasPrice : Nat
  gasLimit : Nat
  recipient : Address
  value : Nat
  data : Bytes
  chain : Nat

namespace Transfer

/-- The numbers are below the bounds of their parameters. -/
structure Bounded (t : Transfer) : Prop where
  nonce : t.nonce < 2 ^ 64
  gasPrice : t.gasPrice < 2 ^ 128
  gasLimit : t.gasLimit < 2 ^ 64
  value : t.value < 2 ^ 256
  chain : t.chain < 2 ^ 64

/-- The transaction. -/
def legacy (t : Transfer) : LegacyTransaction where
  chainId := some (UInt64.ofNat t.chain)
  nonce := UInt64.ofNat t.nonce
  gasPrice := BitVec.ofNat 128 t.gasPrice
  gasLimit := UInt64.ofNat t.gasLimit
  recipient := some t.recipient
  value := BitVec.ofNat 256 t.value
  input := t.data

section
variable {t : Transfer} (h : t.Bounded)
include h

/-- Numbers below the bounds are the fields of the transaction. -/
theorem Bounded.fields_eq : t.legacy.fields =
    [.number t.nonce, .number t.gasPrice, .number t.gasLimit, .bytes t.recipient.toBytes,
      .number t.value, .bytes t.data] := by
  have hnonce : (UInt64.ofNat t.nonce).toNat = t.nonce := UInt64.toNat_ofNat_of_lt h.nonce
  have hlimit : (UInt64.ofNat t.gasLimit).toNat = t.gasLimit := UInt64.toNat_ofNat_of_lt h.gasLimit
  unfold LegacyTransaction.fields legacy
  simp only [hnonce, hlimit, BitVec.toNat_ofNat, Nat.mod_eq_of_lt h.gasPrice, Nat.mod_eq_of_lt h.value,
    Recipient.item]

/-- The fields that are signed are exactly what the transfer tells. -/
theorem Bounded.unsignedFields_eq : t.legacy.unsignedFields =
    [.number t.nonce, .number t.gasPrice, .number t.gasLimit, .bytes t.recipient.toBytes,
      .number t.value, .bytes t.data, .number t.chain, .number 0, .number 0] := by
  have hchain : (UInt64.ofNat t.chain).toNat = t.chain := UInt64.toNat_ofNat_of_lt h.chain
  change t.legacy.fields ++ [.number (UInt64.ofNat t.chain).toNat, .number 0, .number 0] = _
  rw [h.fields_eq, hchain]
  rfl

/-- So are those that are sent, with the signature behind them. -/
theorem Bounded.signedFields_eq (sig : Signature) : t.legacy.signedFields sig =
    [.number t.nonce, .number t.gasPrice, .number t.gasLimit, .bytes t.recipient.toBytes,
      .number t.value, .bytes t.data, .number (35 + 2 * t.chain + sig.oddY.toNat), .number sig.r.toNat,
      .number sig.s.toNat] := by
  have hchain : (UInt64.ofNat t.chain).toNat = t.chain := UInt64.toNat_ofNat_of_lt h.chain
  change t.legacy.fields ++ [.number (35 + 2 * (UInt64.ofNat t.chain).toNat + sig.oddY.toNat),
    .number sig.r.toNat, .number sig.s.toNat] = _
  rw [h.fields_eq, hchain]
  rfl

end

end Transfer

namespace Line

/-- The number is written in decimal, or it is the usual one and left out. -/
def TellsNumber (line : Line) (p : Parameter) (usual : Option Nat) (n : Nat) : Prop :=
  match line.told? p with
  | some text => Decimal text n
  | none => usual = some n

/-- The line tells the sender and the transaction: accounts and bytes in hexadecimal digits, behind a mark or
without one, and numbers in decimal. The limit of gas, the value, the chain and the data may be left out. -/
structure Tells (line : Line) (sender : Address) (t : Transfer) : Prop where
  sender : ∃ text, line.told? .address = some text ∧ Hex.SpellsMarked text.toList sender.toBytes
  recipient : ∃ text, line.told? .recipient = some text ∧
    Hex.SpellsMarked text.toList t.recipient.toBytes
  nonce : line.TellsNumber .nonce none t.nonce
  gasPrice : line.TellsNumber .gasPrice none t.gasPrice
  gasLimit : line.TellsNumber .gasLimit (some 21000) t.gasLimit
  value : line.TellsNumber .value (some 0) t.value
  chain : line.TellsNumber .chainId (some 9323310) t.chain
  data : match line.told? .data with
    | some text => Hex.SpellsMarked text.toList t.data
    | none => t.data = []

/-- No parameter is told twice in one place. A directory is not empty, and a number of iterations is written
in decimal. -/
structure Regular (line : Line) : Prop where
  before : (line.before.map (·.parameter)).Nodup
  after : (line.after.map (·.parameter)).Nodup
  keystore : ∀ entry ∈ line.before ++ line.after, entry.parameter = .keystore → entry.text ≠ ""
  iterations : ∀ entry ∈ line.before ++ line.after, entry.parameter = .kdfIterations →
    ∃ n < 2 ^ 32, Decimal entry.text n

/-- The directory of the keyfiles that the line tells, or the environment, or else the usual one. -/
def directory (line : Line) (environment : Environment) : Path :=
  (((line.told? .keystore).or (environment "MEOW_KEYSTORE")).map Path.ofText).getD
    (Config.defaultDirectory ((environment "HOME").map Path.ofText))

section
variable {line : Line} {sender : Address} {t : Transfer} {arguments : Arguments}
  {environment : Environment}

/-! ## The texts are values -/

/-- A number that is told in decimal and below its bound is accepted. -/
theorem check_of_told {p : Parameter} {usual : Option Nat} {n bound : Nat} {text : String}
    (htells : line.TellsNumber p usual n) (htold : line.told? p = some text) (hbound : p.bound? = some bound)
    (hlt : n < bound) : p.check text = .ok () := by
  rw [TellsNumber, htold] at htells
  exact (Parameter.check_iff_lt hbound htells).2 hlt

/-- An address that is spelled out is accepted. -/
theorem check_of_spells {text : String} {address : Address}
    (h : Hex.SpellsMarked text.toList address.toBytes) :
    Parameter.address.check text = .ok () ∧ Parameter.recipient.check text = .ok () := by
  have hread := Address.ofText?_eq_some_iff.2 h
  simp [Parameter.check, hread]

/-- Data is read exactly as the bytes that are spelled out. -/
theorem readData_eq_some_iff {text : String} {bytes : Bytes} :
    Parameter.readData text = some bytes ↔ Hex.SpellsMarked text.toList bytes :=
  Address.decode?_dropHexMark

/-- All texts of a line that tells a transaction are values. -/
theorem Tells.valued (htells : line.Tells sender t) (hbounded : t.Bounded) (hregular : line.Regular)
    (hfits : line.Fits .signTransaction) : line.Valued := by
  refine ⟨hregular.before, hregular.after, fun entry hentry => ?_⟩
  obtain ⟨p, text, attached⟩ := entry
  have hshared (hmem : p ∈ Scope.shared) : p.check text = .ok () := by
    cases p with
    | keystore => exact check_keystore (hregular.keystore _ hentry rfl)
    | password => rfl
    | kdfIterations =>
      obtain ⟨n, hlt, hdecimal⟩ := hregular.iterations _ hentry rfl
      exact (Parameter.check_iff_lt rfl hdecimal).2 hlt
    | _ => exact absurd hmem (by decide)
  rcases List.mem_append.1 hentry with hbefore | hafter
  · exact hshared (hfits.before _ hbefore).mem
  · have htold : line.told? p = some text := told?_of_mem_after hregular.after hafter
    rcases List.mem_append.1 (hfits.after _ hafter).mem with hmem | hmem
    · simp only at hmem ⊢
      cases p with
      | address =>
        obtain ⟨told, htold', hspells⟩ := htells.sender
        cases htold.symm.trans htold'
        exact (check_of_spells hspells).1
      | recipient =>
        obtain ⟨told, htold', hspells⟩ := htells.recipient
        cases htold.symm.trans htold'
        exact (check_of_spells hspells).2
      | value => exact check_of_told htells.value htold rfl hbounded.value
      | nonce => exact check_of_told htells.nonce htold rfl hbounded.nonce
      | gasLimit => exact check_of_told htells.gasLimit htold rfl hbounded.gasLimit
      | gasPrice => exact check_of_told htells.gasPrice htold rfl hbounded.gasPrice
      | chainId => exact check_of_told htells.chain htold rfl hbounded.chain
      | data =>
        have hdata := htells.data
        rw [htold] at hdata
        simp [Parameter.check, readData_eq_some_iff.2 hdata]
      | _ => exact absurd hmem (by decide)
    · exact hshared hmem

/-! ## The arguments are what is told -/

section
variable (htext : ∀ p ∉ Scope.shared, arguments.text? p = line.told? p)
include htext

/-- A number that is told is read. -/
theorem value_of_number {α : Type} {p : Parameter} (hp : p ∉ Scope.shared) {n : Nat}
    (htells : line.TellsNumber p none n) {read : String → Option α} {a : α}
    (hread : ∀ text, Decimal text n → read text = some a) : arguments.value p read = .ok a := by
  unfold TellsNumber at htells
  unfold Arguments.value
  rw [htext p hp]
  cases htold : line.told? p with
  | none => rw [htold] at htells; cases htells
  | some text =>
    rw [htold] at htells
    simp only [hread text htells]

/-- A number that is told, or left out and usual, is read. -/
theorem valueOr_of_number {α : Type} {p : Parameter} (hp : p ∉ Scope.shared) {n m : Nat}
    (htells : line.TellsNumber p (some m) n) {read : String → Option α} {a usual : α}
    (hread : ∀ text, Decimal text n → read text = some a) (husual : m = n → usual = a) :
    arguments.valueOr p read usual = .ok a := by
  unfold TellsNumber at htells
  unfold Arguments.valueOr Arguments.value
  rw [htext p hp]
  cases htold : line.told? p with
  | none =>
    rw [htold, Option.some.injEq] at htells
    rw [husual htells]
  | some text =>
    rw [htold] at htells
    simp only [hread text htells]

/-- An address that is told is read. -/
theorem value_of_spells {p : Parameter} (hp : p ∉ Scope.shared) {address : Address}
    (htells : ∃ text, line.told? p = some text ∧ Hex.SpellsMarked text.toList address.toBytes) :
    arguments.value p Address.ofText? = .ok address := by
  obtain ⟨text, htold, hspells⟩ := htells
  unfold Arguments.value
  rw [htext p hp, htold]
  simp only [Address.ofText?_eq_some_iff.2 hspells]

/-- The arguments tell the transaction. -/
theorem Tells.transaction_eq (htells : line.Tells sender t) (hbounded : t.Bounded) :
    arguments.transaction = .ok t.legacy := by
  have hword {n : Nat} (hlt : n < 2 ^ 64) (text : String) (h : Decimal text n) :
      Parameter.readWord text = some (UInt64.ofNat n) :=
    (Parameter.readWord_of_decimal h).trans (if_pos hlt)
  have hchain : arguments.valueOr .chainId Parameter.readWord Arguments.usualChain =
      .ok (UInt64.ofNat t.chain) :=
    valueOr_of_number htext (by decide) htells.chain (hword hbounded.chain) fun h => h ▸ rfl
  have hnonce : arguments.value .nonce Parameter.readWord = .ok (UInt64.ofNat t.nonce) :=
    value_of_number htext (by decide) htells.nonce (hword hbounded.nonce)
  have hprice : arguments.value .gasPrice Parameter.readPrice = .ok (BitVec.ofNat 128 t.gasPrice) :=
    value_of_number htext (by decide) htells.gasPrice fun text h =>
      (Parameter.readPrice_of_decimal h).trans (if_pos hbounded.gasPrice)
  have hlimit : arguments.valueOr .gasLimit Parameter.readWord Arguments.usualGasLimit =
      .ok (UInt64.ofNat t.gasLimit) :=
    valueOr_of_number htext (by decide) htells.gasLimit (hword hbounded.gasLimit) fun h => h ▸ rfl
  have hrecipient : arguments.value .recipient Address.ofText? = .ok t.recipient :=
    value_of_spells htext (by decide) htells.recipient
  have hvalue : arguments.valueOr .value Parameter.readAmount 0 = .ok (BitVec.ofNat 256 t.value) :=
    valueOr_of_number htext (by decide) htells.value (fun text h =>
      (Parameter.readAmount_of_decimal h).trans (if_pos hbounded.value)) fun h => h ▸ rfl
  have hdata : arguments.valueOr .data Parameter.readData [] = .ok t.data := by
    have htold := htells.data
    unfold Arguments.valueOr Arguments.value
    rw [htext .data (by decide)]
    cases hsome : line.told? .data with
    | none => rw [hsome] at htold; rw [htold]
    | some text =>
      rw [hsome] at htold
      simp only [readData_eq_some_iff.2 htold]
  unfold Arguments.transaction
  rw [hchain, hnonce, hprice, hlimit, hrecipient, hvalue, hdata]
  rfl

/-- All that the command requires is given. -/
theorem Tells.checkTogether_eq (htells : line.Tells sender t) (hfits : line.Fits .signTransaction)
    (hgiven : ∀ p ∉ Scope.shared, isGiven arguments.inner p = (arguments.text? p).isSome) :
    checkTogether .signTransaction arguments.inner = .ok () := by
  have hgiven (p : Parameter) (hp : p ∉ Scope.shared) :
      isGiven arguments.inner p = (line.told? p).isSome := by
    rw [hgiven p hp, htext p hp]
  have hnumber {p : Parameter} {n : Nat} (h : line.TellsNumber p none n) :
      (line.told? p).isSome = true := by
    unfold TellsNumber at h
    cases htold : line.told? p with
    | none => rw [htold] at h; cases h
    | some text => rfl
  have hkeyfile : isGiven arguments.inner .keyfile = false := by
    rw [hgiven _ (by decide), hfits.told?_eq_none (by decide)]
    rfl
  have haddress : isGiven arguments.inner .address = true := by
    obtain ⟨text, htold, -⟩ := htells.sender
    rw [hgiven _ (by decide), htold]
    rfl
  have hrecipient : isGiven arguments.inner .recipient = true := by
    obtain ⟨text, htold, -⟩ := htells.recipient
    rw [hgiven _ (by decide), htold]
    rfl
  have hnonce : isGiven arguments.inner .nonce = true :=
    (hgiven _ (by decide)).trans (hnumber htells.nonce)
  have hprice : isGiven arguments.inner .gasPrice = true :=
    (hgiven _ (by decide)).trans (hnumber htells.gasPrice)
  have hmissing : (requiredParameters .signTransaction arguments.inner).filter
      (fun p => !isGiven arguments.inner p) = [] := by
    change List.filter _ ([.address, .recipient, .nonce, .gasPrice] : List Parameter) = []
    simp [haddress, hrecipient, hnonce, hprice]
  have hexclude : ¬ (isGiven arguments.inner .keyfile = true ∧
      isGiven arguments.inner .privateKey = true) := by
    simp [hkeyfile]
  unfold checkTogether
  rw [hmissing, if_neg hexclude]
  rfl

end

/-- The line means the command with the transaction, in its directory. -/
theorem Tells.exists_ofWords (htells : line.Tells sender t) (hbounded : t.Bounded)
    (hregular : line.Regular) (hfits : line.Fits .signTransaction)
    (henvironment : environment "MEOW_KEYSTORE" ≠ some "") {password : String}
    (hpassword : line.told? .password = some password) :
    ∃ invocation, Invocation.ofWords (line.words .signTransaction) environment = .ok invocation ∧
      invocation.password = some password ∧
      invocation.command = .signTransaction sender t.legacy ∧
      invocation.directory ((environment "HOME").map Path.ofText) = line.directory environment := by
  obtain ⟨arguments, htexts, hgiven, hwords⟩ :=
    exists_arguments hfits (htells.valued hbounded hregular hfits) henvironment
  have hown (p : Parameter) (hp : p ∉ Scope.shared) : arguments.text? p = line.told? p := by
    have hnone : (if p ∈ (Scope.command .signTransaction).parameters then
        p.fromVariable?.bind environment else none) = none := by
      cases p with
      | keystore | password => exact absurd (by decide) hp
      | _ => rfl
    rw [htexts, hnone, Option.or_none]
  have hkeystore : arguments.text? .keystore =
      (line.told? .keystore).or (environment "MEOW_KEYSTORE") := htexts .keystore
  have hgivenPassword : arguments.text? .password = some password := by
    rw [htexts, hpassword, Option.some_or]
  have hsender : arguments.value .address Address.ofText? = .ok sender :=
    value_of_spells hown (by decide) htells.sender
  have hiterations : ∃ iterations, arguments.valueOr .kdfIterations Parameter.readIterations
      Config.defaultIterations = .ok iterations := by
    have htold : arguments.text? .kdfIterations = line.told? .kdfIterations :=
      (htexts .kdfIterations).trans (Option.or_none)
    unfold Arguments.valueOr Arguments.value
    rw [htold]
    cases hsome : line.told? .kdfIterations with
    | none => exact ⟨_, rfl⟩
    | some text =>
      obtain ⟨entry, hentry, hp, rfl⟩ := exists_of_told? hsome
      obtain ⟨n, hlt, hdecimal⟩ := hregular.iterations entry hentry hp
      simp only [(Parameter.readIterations_of_decimal hdecimal).trans (if_pos hlt)]
      exact ⟨_, rfl⟩
  obtain ⟨iterations, hiterations⟩ := hiterations
  have hcommand : arguments.command .signTransaction = .ok (.signTransaction sender t.legacy) := by
    unfold Arguments.command
    simp only [hsender, htells.transaction_eq hown hbounded]
    rfl
  refine ⟨⟨(arguments.text? .keystore).map Path.ofText, some password, iterations,
    .signTransaction sender t.legacy⟩, ?_, rfl, rfl, ?_⟩
  · rw [hwords, htells.checkTogether_eq hown hfits hgiven]
    change arguments.invocation .signTransaction = _
    unfold Arguments.invocation
    simp only [hiterations, hcommand, hgivenPassword]
    rfl
  · rw [Invocation.directory, hkeystore]
    rfl

end

end Line

/-! ## Runs -/

section
variable {line : Line} {environment : Environment} {disk : Disk} {sender : Address} {t : Transfer}
  {password : String} {key : KeyPair} {content : Bytes} {sig : Signature}

/-- What a manager that has just been opened answers when it signs a transaction with a password. -/
theorem answer_perform_signTransaction {directory : Directory} (iterations : UInt32) {tx : Transaction}
    (hholds : directory.Holds disk sender content) (hdecode : Keyfile.decode content password = .ok key)
    (hpassword : password ≠ "") (hsign : Ecdsa.sign key tx.digest = some sig) :
    answer ((directory.manager iterations .ecdsa).perform 0 (.signTransaction sender (some password) tx))
      (.opened ⟨disk, []⟩) = .ok (.signedTransaction (tx.signed sig)) := by
  have hresolve : answer ((directory.manager iterations .ecdsa).resolveKey 0 sender (some password))
      (.opened ⟨disk, []⟩) = .ok key := by
    refine Manager.answer_resolveKey_some hpassword (fun k hlookup => by cases hlookup) fun traced hfiles => ?_
    refine Directory.loads_iff.2 ⟨content, ?_, hdecode⟩
    rw [hfiles]
    exact hholds
  have hecdsa : Signer.ecdsa.sign tx.digest.toBytes key false = .ok sig := by
    rw [Signer.ecdsa_eq_ofDigests, Signer.sign_ofDigests_eq_ok_iff]
    exact ⟨tx.digest, rfl, hsign⟩
  have hsigned : answer ((directory.manager iterations .ecdsa).sign 0 sender (some password)
      tx.digest.toBytes false) (.opened ⟨disk, []⟩) = .ok sig :=
    (Manager.answer_sign hresolve).trans hecdsa
  rw [Manager.perform, answer_map, Manager.signTransaction, answer_bind_ok hsigned]
  rfl

/-- A run that signs a transaction prints it. -/
theorem run_of_tells (random : Randomness) (htells : line.Tells sender t) (hbounded : t.Bounded)
    (hregular : line.Regular) (hfits : line.Fits .signTransaction)
    (henvironment : environment "MEOW_KEYSTORE" ≠ some "")
    (htold : line.told? .password = some password) (hpassword : password ≠ "")
    (hholds : (Config.withDir (line.directory environment)).opens.Holds disk sender content)
    (hdecode : Keyfile.decode content password = .ok key)
    (hsign : Ecdsa.sign key (Transaction.legacy t.legacy).digest = some sig) :
    (run (line.words .signTransaction) environment random disk).1.exitCode = 0 ∧
      (run (line.words .signTransaction) environment random disk).1.stdout =
        "0x" ++ Hex.text ((Transaction.legacy t.legacy).signed sig) ++ "\n" := by
  obtain ⟨invocation, hwords, hgiven, hcommand, hdirectory⟩ :=
    htells.exists_ofWords hbounded hregular hfits henvironment htold
  have hopens : (invocation.config environment).opens =
      (Config.withDir (line.directory environment)).opens := by
    rw [← hdirectory]
    rfl
  rw [← hopens] at hholds
  obtain ⟨place, -, -, hleads, -, -⟩ := id hholds
  have hopened := Manager.ofConfig_of_leadsTo hleads []
  have hcall : invocation.command.call? random disk invocation.password =
      some (.signTransaction sender (some password) (.legacy t.legacy)) := by
    rw [hcommand, hgiven]
    rfl
  have hanswer := answer_perform_signTransaction (invocation.config environment).kdfIterations hholds hdecode
    hpassword hsign
  obtain ⟨hexit, hstdout, -⟩ := run_of_call hwords hopened hcall
  rw [hanswer, hcommand] at hexit hstdout
  generalize (Transaction.legacy t.legacy).signed sig = raw at hexit hstdout ⊢
  refine ⟨hexit.2 rfl, hstdout.trans ?_⟩
  change String.join [Output.text _ (.line ("0x" ++ Hex.text raw))] = _
  rw [Output.text_line]
  simp [String.join]

/-- A run is refused whose line tells a number that is too large. -/
theorem run_of_bound_le {name : CommandName} (random : Randomness) (hfits : line.Fits name) {entry : Entry}
    (hentry : entry ∈ line.before ++ line.after) {bound n : Nat}
    (hbound : entry.parameter.bound? = some bound) (hdecimal : Decimal entry.text n) (hle : bound ≤ n) :
    (run (line.words name) environment random disk).1.exitCode = 2 ∧
      (run (line.words name) environment random disk).1.stdout = "" ∧
      (run (line.words name) environment random disk).2 = disk := by
  have hhelp : Invocation.ofWords (line.words name) environment ≠ .error .help :=
    Line.ofWords_ne_help hfits
  unfold run
  cases hwords : Invocation.ofWords (line.words name) environment with
  | error usage =>
    have husage : usage ≠ .help := by
      rintro rfl
      exact hhelp hwords
    simp only [Outcome.ofUsage, if_neg husage, and_self]
  | ok invocation =>
    have hcheck := Line.check_of_ofWords hfits hwords entry hentry
    exact absurd ((Parameter.check_iff_lt hbound hdecimal).1 hcheck) (Nat.not_lt.2 hle)

end

/-- A line tells a transaction and a password that is not empty, in any order, with each option in either
form. In its directory the keyfile of the sender opens under the password to a key pair that signs the hash of
the transaction, with the chain and two zeros behind its fields. Then the run exits with zero and prints the
serial form of exactly what was told, or is usual and left out, with the signature behind it: first the
parity and the chain, and then its two numbers. It is read back from what is printed, where the data has a
length that bytes in memory can have. A line that tells a number at its bound or above is refused, whatever
else it tells, and nothing is changed. -/
theorem run_signs_what_is_told (line : Line) (environment : Environment) (random : Randomness)
    (disk : Disk) (hfits : line.Fits .signTransaction) :
    (∀ (sender : Address) (t : Transfer) (password : String) (content : Bytes) (key : KeyPair)
        (sig : Signature),
      line.Regular → environment "MEOW_KEYSTORE" ≠ some "" → line.Tells sender t → t.Bounded →
      line.told? .password = some password → password ≠ "" →
      (Config.withDir (line.directory environment)).opens.Holds disk sender content →
      Keyfile.decode content password = .ok key →
      Ecdsa.sign key (keccak256 (Rlp.encode (.list [.number t.nonce, .number t.gasPrice,
        .number t.gasLimit, .bytes t.recipient.toBytes, .number t.value, .bytes t.data, .number t.chain,
        .number 0, .number 0]))) = some sig →
      let signed : List Item := [.number t.nonce, .number t.gasPrice, .number t.gasLimit,
        .bytes t.recipient.toBytes, .number t.value, .bytes t.data,
        .number (35 + 2 * t.chain + sig.oddY.toNat), .number sig.r.toNat, .number sig.s.toNat]
      let outcome := (run (line.words .signTransaction) environment random disk).1
      outcome.exitCode = 0 ∧ outcome.stdout = "0x" ++ Hex.text (Rlp.encode (.list signed)) ++ "\n" ∧
        (t.data.length < 2 ^ 63 → Rlp.decodeList? (Rlp.encode (.list signed)) = some signed)) ∧
    ∀ entry ∈ line.before ++ line.after, ∀ bound n, entry.parameter.bound? = some bound →
      Decimal entry.text n → bound ≤ n →
      (run (line.words .signTransaction) environment random disk).1.exitCode = 2 ∧
        (run (line.words .signTransaction) environment random disk).1.stdout = "" ∧
        (run (line.words .signTransaction) environment random disk).2 = disk := by
  constructor
  · intro sender t password content key sig hregular henvironment htells hbounded htold hpassword hholds
      hdecode hsign signed outcome
    have hsigned : t.legacy.signedFields sig = signed := hbounded.signedFields_eq sig
    have hdigest : (Transaction.legacy t.legacy).digest = keccak256 (Rlp.encode (.list
        [.number t.nonce, .number t.gasPrice, .number t.gasLimit, .bytes t.recipient.toBytes,
          .number t.value, .bytes t.data, .number t.chain, .number 0, .number 0])) := by
      rw [Transaction.digest, Transaction.preimage, hbounded.unsignedFields_eq]
    rw [← hdigest] at hsign
    obtain ⟨hexit, hstdout⟩ := run_of_tells random htells hbounded hregular hfits henvironment htold
      hpassword hholds hdecode hsign
    rw [Transaction.signed, hsigned] at hstdout
    refine ⟨hexit, hstdout, fun hlength => Rlp.decodeList?_encode ?_⟩
    rw [← hsigned]
    exact t.legacy.length_signed_lt sig hlength
  · intro entry hentry bound n hbound hdecimal hle
    exact run_of_bound_le random hfits hentry hbound hdecimal hle

/-! ### A line in the sample directory -/

/-- Nothing is sent to the account with the zero address, from itself. -/
def Line.sample (nonce : String) : Line where
  before := [⟨.keystore, "/k", true⟩]
  after := [⟨.password, "p", true⟩, ⟨.address, "0x0000000000000000000000000000000000000000", false⟩,
    ⟨.recipient, "0000000000000000000000000000000000000000", true⟩, ⟨.nonce, nonce, false⟩,
    ⟨.gasPrice, "1000000000", true⟩]

/-- The transaction that it tells. -/
def Transfer.sample (nonce : Nat) : Transfer :=
  ⟨nonce, 1000000000, 21000, .zero, 0, [], 9323310⟩

/-- The sample line is read whatever its nonce is. -/
theorem Line.fits_sample {nonce : String} (h : Word.ofText nonce = .plain) :
    (sample nonce).Fits .signTransaction := by
  have hattached {scope : Scope} {p : Parameter} {text : String} (hmem : p ∈ scope.parameters)
      (hpositional : p.isPositional = false) (hvalue : p.takesValue = true) :
      Entry.Fits scope ⟨p, text, true⟩ := by
    refine ⟨hmem, hvalue, ?_⟩
    rintro (hp | hattached)
    · cases hpositional.symm.trans hp
    · cases hattached
  refine ⟨List.forall_mem_singleton.2 (hattached (by decide) rfl rfl), ?_, ⟨[], rfl⟩⟩
  simp only [sample, List.forall_mem_cons]
  exact ⟨hattached (by decide) rfl rfl, ⟨by decide, rfl, fun _ => by rfl⟩,
    hattached (by decide) rfl rfl,
    ⟨(by decide : Parameter.nonce ∈ (Scope.command .signTransaction).parameters), rfl, fun _ => h⟩,
    hattached (by decide) rfl rfl,
    List.forall_mem_nil _⟩

/-- It stands as it should. -/
theorem Line.regular_sample (nonce : String) : (sample nonce).Regular := by
  refine ⟨by simp [sample], by simp [sample], ?_, ?_⟩
  · simp [sample]
  · simp [sample]

/-- It tells the sample transfer. -/
theorem Line.tells_sample {text : String} {nonce : Nat} (h : Decimal text nonce) :
    (sample text).Tells .zero (.sample nonce) where
  sender := ⟨_, rfl, Address.ofText?_eq_some_iff.1 (by rfl)⟩
  recipient := ⟨_, rfl, Address.ofText?_eq_some_iff.1 (by rfl)⟩
  nonce := h
  gasPrice := (by decide : Decimal "1000000000" 1000000000)
  gasLimit := rfl
  value := rfl
  chain := rfl
  data := rfl

/-- It is signed with the nonce three, and refused with the first nonce that is too large. -/
theorem run_signs_what_is_told_sample :
    (Line.sample "3").words .signTransaction = ["--keystore=/k", "sign-tx", "--password=p",
      "0x0000000000000000000000000000000000000000", "--to=0000000000000000000000000000000000000000",
      "--nonce", "3", "--gas-price=1000000000"] ∧
    (∃ sig : Signature,
      Ecdsa.sign .one (keccak256 (Rlp.encode (.list [.number 3, .number 1000000000, .number 21000,
        .bytes Address.zero.toBytes, .number 0, .bytes [], .number 9323310, .number 0, .number 0]))) =
          some sig ∧
      let signed : List Item := [.number 3, .number 1000000000, .number 21000,
        .bytes Address.zero.toBytes, .number 0, .bytes [],
        .number (35 + 2 * 9323310 + sig.oddY.toNat), .number sig.r.toNat, .number sig.s.toNat]
      let outcome := (run ((Line.sample "3").words .signTransaction) .none .sample Manager.renamed).1
      outcome.exitCode = 0 ∧ outcome.stdout = "0x" ++ Hex.text (Rlp.encode (.list signed)) ++ "\n" ∧
        Rlp.decodeList? (Rlp.encode (.list signed)) = some signed) ∧
    (run ((Line.sample "18446744073709551616").words .signTransaction) .none .sample
      Manager.renamed).1.exitCode = 2 := by
  have hopens : (Config.withDir ((Line.sample "3").directory .none)).opens = Directory.sample := by rfl
  have hsome : (Ecdsa.sign .one (keccak256 (Rlp.encode (.list [.number 3, .number 1000000000, .number 21000,
      .bytes Address.zero.toBytes, .number 0, .bytes [], .number 9323310, .number 0,
        .number 0])))).isSome = true := by decide +kernel
  obtain ⟨sig, hsign⟩ := Option.isSome_iff_exists.1 hsome
  have hdecimal : Decimal "3" 3 := by decide
  have hlarge : Decimal "18446744073709551616" (2 ^ 64) := by decide
  have hbounded : (Transfer.sample 3).Bounded :=
    ⟨by decide, by decide, by decide, by decide, by decide⟩
  refine ⟨by rfl, ⟨sig, hsign, ?_⟩, ?_⟩
  · obtain ⟨hsigns, -⟩ := run_signs_what_is_told (Line.sample "3") .none .sample Manager.renamed
      (Line.fits_sample (by rfl))
    obtain ⟨hexit, hstdout, hread⟩ := hsigns .zero (.sample 3) "p" _ .one sig (Line.regular_sample _)
      nofun (Line.tells_sample hdecimal) hbounded rfl (by decide) (hopens ▸ Manager.renamed_holds)
      (Keyfile.decode_encode .one "p" .zero (show Keyfile.Opens 1 by decide)) hsign
    exact ⟨hexit, hstdout, hread (by decide)⟩
  · obtain ⟨-, hrefused⟩ := run_signs_what_is_told (Line.sample "18446744073709551616") .none .sample
      Manager.renamed (Line.fits_sample (by rfl))
    exact (hrefused ⟨.nonce, "18446744073709551616", false⟩ (by simp [Line.sample]) _ _ rfl hlarge
      (Nat.le_refl _)).1

end Keyring.Cli
