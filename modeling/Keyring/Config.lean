import Keyring.Path

/-!
# Settings

Where keyfiles are kept and how much work it takes to open new ones.
-/

namespace Keyring

/-- The settings of an account manager. Reference: `AccountManagerConfig`. -/
structure Config where
  /-- The directory of the keyfiles. -/
  keystoreDir : Path
  /-- The number of iterations for new keyfiles. -/
  kdfIterations : UInt32
deriving DecidableEq

namespace Config

/-- The usual number of iterations, `2 ^ 18`. Reference: `DEFAULT_PBKDF2_C`. -/
def defaultIterations : UInt32 := 262144

/-- The directory of the keyfiles unless another one is chosen: `.meowchain` in the home directory, or in the
working directory if there is no home. Reference: `default_directory`. -/
def defaultDirectory (home : Option Path) : Path :=
  (home.getD ⟨[]⟩).join (Path.ofText ".meowchain")

/-- The usual settings for a directory. Reference: `with_dir` of `AccountManagerConfig`. -/
def withDir (dir : Path) : Config :=
  ⟨dir, defaultIterations⟩

/-- The usual settings. Reference: `default` of `AccountManagerConfig`. -/
def default (home : Option Path) : Config :=
  withDir (defaultDirectory home)

/-- Settings whose keyfiles are opened at once, also by others: for throwaway keys only. Reference:
`insecure_fast_kdf` of `AccountManagerConfig`. -/
def insecureFast (dir : Path) : Config :=
  ⟨dir, 2⟩

/-- The settings with another number of iterations. Reference: `kdf_iterations` of `AccountManagerConfig`. -/
def withIterations (config : Config) (n : UInt32) : Config :=
  { config with kdfIterations := n }

end Config

end Keyring
