import Keyring.Address
import Keyring.Path

/-!
# What the program prints

Headings are bold and blue, values cyan, successes green, warnings yellow and what matters less is
dimmed, if colours are on. A line is printed for each success, and keys and signatures stand on lines
of their own.
-/

namespace Keyring.Cli

/-- The styles of printed text. -/
inductive Style where
  | heading
  | success
  | warning
  | value
  | dimmed

/-- The numbers of the terminal's attributes that make a style. -/
def Style.attributes : Style → String
  | heading => "1;34"
  | success => "1;32"
  | warning => "1;33"
  | value => "36"
  | dimmed => "2"

/-- What gives the text after it attributes of the terminal. -/
def attributesOn (attributes : String) : String :=
  "\x1b[" ++ attributes ++ "m"

/-- What takes all attributes from the text after it. -/
def attributesOff : String :=
  "\x1b[0m"

/-- A text with attributes of the terminal. -/
def withAttributes (attributes text : String) : String :=
  attributesOn attributes ++ text ++ attributesOff

/-- Whether colours are on. -/
structure Palette where
  coloured : Bool

namespace Palette

/-- Colours are on if the environment asks for them. -/
def ofEnvironment (environment : String → Option String) : Palette :=
  ⟨(environment "CLICOLOR_FORCE").any (· ≠ "0")⟩

/-- A text in a style. Where the text itself takes all attributes away, the style is taken up again. -/
def paint (palette : Palette) (style : Style) (text : String) : String :=
  if palette.coloured then
    withAttributes style.attributes
      (text.replace attributesOff (attributesOff ++ attributesOn style.attributes))
  else text

/-- An address as a value. -/
def address (palette : Palette) (address : Address) : String :=
  palette.paint .value address.text

end Palette

/-- How many accounts there are, in words. Reference: `format_account_count`. -/
def accountCount (n : Nat) : String :=
  if n = 1 then "1 account" else toString n ++ " accounts"

/-- What the program prints. -/
inductive Output where
  /-- The place of the keyfiles, before anything about them. -/
  | keystore (path : Path)
  | noAccounts
  | accounts (addresses : List Address)
  | created (address : Address)
  | imported (address : Address)
  | alreadyManaged
  | exported (address : Address) (secret : String)
  | updated (address : Address)
  | deleted (address : Address)
  | line (text : String)

namespace Output

/-- The lines about a success. -/
def done (palette : Palette) (text : String) (address : Address) : List String :=
  ["  " ++ palette.paint .success "OK" ++ " " ++ text ++ " " ++ palette.address address]

/-- A warning. -/
def warning (palette : Palette) (text : String) : String :=
  "  " ++ palette.paint .warning "WARNING:" ++ " " ++ text

/-- The numbered line of an account. -/
def numbered (palette : Palette) (entry : Address × Nat) : String :=
  "  " ++ palette.paint .dimmed (toString (entry.2 + 1)) ++ ". " ++ palette.address entry.1

/-- The lines that are printed. Reference: `print_accounts`, `print_private_key` and the other functions that
print. -/
def lines (palette : Palette) : Output → List String
  | keystore path =>
    [palette.paint .heading "=== Meowchain Accounts ===",
      "  Keystore: " ++ palette.paint .dimmed path.display]
  | noAccounts =>
    ["  " ++ palette.paint .heading "INFO"
      ++ " No accounts yet. Create one with `meowchain-accounts new`."]
  | accounts addresses =>
    "" :: palette.paint .heading (accountCount addresses.length ++ ":")
      :: addresses.zipIdx.map (numbered palette)
  | created address => done palette "Created account" address
  | imported address => done palette "Imported account" address
  | alreadyManaged => [warning palette "Account already exists; keyfile left unchanged."]
  | exported address secret =>
    [warning palette ("Anyone holding this key controls " ++ palette.address address ++ "."), secret]
  | updated address => done palette "Updated password for" address
  | deleted address => done palette "Deleted account" address
  | line text => [text]

/-- The text that is printed. -/
def text (palette : Palette) (output : Output) : String :=
  String.join ((output.lines palette).map (· ++ "\n"))

end Output

end Keyring.Cli
