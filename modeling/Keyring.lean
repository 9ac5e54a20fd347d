import Keyring.Account.Error
import Keyring.Account.Event
import Keyring.Address
import Keyring.Address.Map
import Keyring.Address.Order
import Keyring.Bytes.Basic
import Keyring.Bytes.BigEndian
import Keyring.Bytes.Hex
import Keyring.Cipher.Aes
import Keyring.Cipher.Counter
import Keyring.Cli.Arguments
import Keyring.Cli.Command
import Keyring.Cli.Directive
import Keyring.Cli.Filter
import Keyring.Cli.Log
import Keyring.Cli.Numeral
import Keyring.Cli.Parameter
import Keyring.Cli.Pattern
import Keyring.Cli.Program
import Keyring.Cli.Report
import Keyring.Cli.Screen
import Keyring.Config
import Keyring.Curve.Ecdsa
import Keyring.Curve.Secp256k1
import Keyring.Curve.Signature
import Keyring.Decimal.Binary64
import Keyring.Disk.Basic
import Keyring.Disk.Change
import Keyring.Disk.Error
import Keyring.Disk.Lookup
import Keyring.Disk.Others
import Keyring.Hash.Hmac
import Keyring.Hash.Keccak
import Keyring.Hash.Pbkdf2
import Keyring.Hash.Scrypt
import Keyring.Hash.Sha256
import Keyring.Json.Any
import Keyring.Json.Printer
import Keyring.Json.Problem
import Keyring.Json.Reader
import Keyring.Json.Record
import Keyring.Json.Skip
import Keyring.Json.Value
import Keyring.KeyPair
import Keyring.Keyfile.Basic
import Keyring.Keyfile.Codec
import Keyring.Keyfile.Derivation
import Keyring.Keyfile.Error
import Keyring.Keyfile.Name
import Keyring.Keyfile.Printer
import Keyring.Keyfile.Reader
import Keyring.Keystore
import Keyring.Main
import Keyring.Manager
import Keyring.Path
import Keyring.Proofs.Json.Tokens
import Keyring.Proofs.Text.Utf8
import Keyring.Rlp
import Keyring.Signing
import Keyring.Storage.Basic
import Keyring.Storage.Directory
import Keyring.Storage.Memory
import Keyring.Text.Alphanumeric
import Keyring.Text.Blank
import Keyring.Text.Quoted
import Keyring.Text.Unprintable
import Keyring.Text.Utf8
import Keyring.Transaction
import Keyring.Unlock
import Keyring.Proofs.Keyfile.Json
import Keyring.Proofs.Disk.Entries
import Keyring.Proofs.Keyfile.Codec
import Keyring.Proofs.Keyfile.Name
import Keyring.Proofs.Storage.Directory
import Keyring.Proofs.Keystore.Operations
import Keyring.Proofs.Manager.History
import Keyring.Proofs.Manager.Registry
import Keyring.Proofs.Manager.Unlocking
import Keyring.Proofs.Keystore.Ledger
import Keyring.Proofs.Manager.Files
import Keyring.Proofs.Manager.Ledger
import Keyring.Proofs.Keystore.Faithful
import Keyring.Proofs.Manager.Ownership
import Keyring.Proofs.Keystore.Stored
import Keyring.Proofs.Manager.Stored
import Keyring.Proofs.Json.Layout
import Keyring.Proofs.Json.Strings
import Keyring.Proofs.Json.Numerals
import Keyring.Proofs.Json.Values
import Keyring.Proofs.Json.Forms
import Keyring.Proofs.Json.Records
import Keyring.Proofs.Keyfile.Layout
import Keyring.Proofs.Keyfile.Forms
import Keyring.Proofs.Keyfile.Shown
import Keyring.Proofs.Keyfile.Authentic
import Keyring.Proofs.Rlp.Reader
import Keyring.Proofs.Transaction.Reader
import Keyring.Proofs.Transaction.Recovery
import Keyring.Proofs.Unlock.Requests
import Keyring.Proofs.Unlock.Purges
import Keyring.Proofs.Unlock.Timeline
import Keyring.Proofs.Manager.Managed
import Keyring.Proofs.Manager.Deletion
import Keyring.Proofs.Keystore.Failed
import Keyring.Proofs.Cipher.Aes
import Keyring.Proofs.Cipher.Counter
import Keyring.Proofs.Keyfile.Standard
import Keyring.Proofs.Storage.Opening
import Keyring.Proofs.Keystore.Sealed
import Keyring.Proofs.Cli.Calls
import Keyring.Proofs.Cli.Runs
import Keyring.Proofs.Cli.Words
import Keyring.Proofs.Cli.Passwords
import Keyring.Proofs.Cli.Entries
import Keyring.Proofs.Cli.Lines
import Keyring.Proofs.Cli.Decimals
import Keyring.Proofs.Cli.Transactions
import Keyring.Proofs.Curve.Signature
import Keyring.Proofs.Address.Text
import Keyring.Proofs.Text.Blank
import Keyring.Proofs.KeyPair.Text
import Keyring.Proofs.Manager.Signing
import Keyring.Proofs.Bytes.Spelling
import Keyring.Proofs.Keyfile.External
import Keyring.Proofs.Keyfile.Tampering
import Keyring.Proofs.Manager.Resolution
import Keyring.Proofs.Keystore.Duplicates
import Keyring.Proofs.Keystore.Listing
import Keyring.Proofs.Storage.Trail
import Keyring.Proofs.Keystore.Changes
import Keyring.Proofs.Manager.Imports
import Keyring.Proofs.Manager.Untouched
import Keyring.Proofs.Keystore.Alone
import Keyring.Proofs.Manager.Alone
import Keyring.Proofs.Manager.Commuting
import Keyring.Proofs.Hash.Scrypt
import Keyring.Proofs.Keyfile.Derivation
import Keyring.Proofs.Path.Normal
