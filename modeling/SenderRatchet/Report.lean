import SenderRatchet.Text.Literal
import SenderRatchet.Value
import SenderRatchet.Varint

/-!
# Reports

What a caller is told of a failure: its kind, a code for the kinds of this library, a message and
details. The modules that can fail say what went wrong as a type of causes, and how each cause is
reported.
-/

namespace SenderRatchet

inductive Code
  | initializationFailed
  | encryptionFailed
  | signatureFailed
  | inputTooLarge
  | sessionKeyInvalid
  | sessionExhausted
  | useAfterRelease
  | ratchetRewind
  | invalidPassphrase
  | pickleAuthenticationFailed
  | pickleFormatInvalid
  | stateSerializationFailed
  | invalidParameter
  deriving DecidableEq, Repr

namespace Code

def text : Code → String
  | .initializationFailed => "CRY_001"
  | .encryptionFailed => "CRY_002"
  | .signatureFailed => "CRY_003"
  | .inputTooLarge => "MSG_001"
  | .sessionKeyInvalid => "MSG_002"
  | .sessionExhausted => "SES_001"
  | .useAfterRelease => "SES_002"
  | .ratchetRewind => "SES_003"
  | .invalidPassphrase => "STA_001"
  | .pickleAuthenticationFailed => "STA_002"
  | .pickleFormatInvalid => "STA_003"
  | .stateSerializationFailed => "STA_004"
  | .invalidParameter => "GEN_001"

end Code

def Kind.reserved : List String :=
  ["GroupRatchetError", "CryptographicError", "MessageError", "SessionError", "StateError",
    "InitializationFailure", "EncryptionInputTooLarge", "SessionKeyFormatError",
    "SessionExhausted", "UseAfterRelease", "InvalidPassphrase", "UnpickleAuthenticationFailure",
    "UnpickleFormatError", "ValueError", "UnicodeEncodeError", "TypeError", "IndexError", "error",
    "RuntimeError", "OSError", "NotImplementedError"]

/-- The first five kinds are families, raised with any code; the next eight have one code each;
the rest come from outside the library and have none. A kind that only callers raise goes by its
name. -/
inductive Kind
  | general
  | cryptographic
  | message
  | session
  | state
  | initializationFailure
  | inputTooLarge
  | sessionKeyFormat
  | sessionExhausted
  | useAfterRelease
  | invalidPassphrase
  | unpickleAuthentication
  | unpickleFormat
  | value
  | encoding
  | type
  | index
  | packing
  | runtime
  | system
  | unimplemented
  | other (name : { s : String // s ∉ Kind.reserved })
  deriving DecidableEq, Repr

namespace Kind

def known : List Kind :=
  [.general, .cryptographic, .message, .session, .state, .initializationFailure, .inputTooLarge,
    .sessionKeyFormat, .sessionExhausted, .useAfterRelease, .invalidPassphrase,
    .unpickleAuthentication, .unpickleFormat, .value, .encoding, .type, .index, .packing, .runtime,
    .system, .unimplemented]

def name : Kind → String
  | .general => "GroupRatchetError"
  | .cryptographic => "CryptographicError"
  | .message => "MessageError"
  | .session => "SessionError"
  | .state => "StateError"
  | .initializationFailure => "InitializationFailure"
  | .inputTooLarge => "EncryptionInputTooLarge"
  | .sessionKeyFormat => "SessionKeyFormatError"
  | .sessionExhausted => "SessionExhausted"
  | .useAfterRelease => "UseAfterRelease"
  | .invalidPassphrase => "InvalidPassphrase"
  | .unpickleAuthentication => "UnpickleAuthenticationFailure"
  | .unpickleFormat => "UnpickleFormatError"
  | .value => "ValueError"
  | .encoding => "UnicodeEncodeError"
  | .type => "TypeError"
  | .index => "IndexError"
  | .packing => "error"
  | .runtime => "RuntimeError"
  | .system => "OSError"
  | .unimplemented => "NotImplementedError"
  | .other name => name.val

def ofName (s : String) : Kind :=
  if h : s ∈ reserved then (known.find? fun k => k.name == s).getD .general else .other ⟨s, h⟩

def isForeign : Kind → Bool
  | .value | .encoding | .type | .index | .packing | .runtime | .system | .unimplemented => true
  | .other _ => true
  | _ => false

def code? : Kind → Option Code
  | .initializationFailure => some .initializationFailed
  | .inputTooLarge => some .inputTooLarge
  | .sessionKeyFormat => some .sessionKeyInvalid
  | .sessionExhausted => some .sessionExhausted
  | .useAfterRelease => some .useAfterRelease
  | .invalidPassphrase => some .invalidPassphrase
  | .unpickleAuthentication => some .pickleAuthenticationFailed
  | .unpickleFormat => some .pickleFormatInvalid
  | _ => none

def suggestion : Kind → String
  | .sessionExhausted => "Create a new outbound session and share its session key"
  | .useAfterRelease => "Session was released; unpickle or create a new one"
  | .unpickleAuthentication => "Check the passphrase; the pickle may also be corrupted"
  | .unpickleFormat => "Pickle was produced by an incompatible version or is truncated"
  | .invalidPassphrase => "Supply a non-empty passphrase"
  | .inputTooLarge => "Split the plaintext into smaller messages"
  | .initializationFailure => "Secure random source unavailable; do not retry"
  | _ => "Consider creating a new session"

end Kind

abbrev Details := List (String × Literal)

structure Report where
  kind : Kind
  code : Option Code
  message : String
  details : Details := []

namespace Report

def isOwn (r : Report) : Bool := r.code.isSome

def text (r : Report) : String :=
  match r.code with
  | some code => code.text ++ ": " ++ r.message
  | none => r.message

def ofKind (kind : Kind) (message : String) (details : Details := []) : Report :=
  ⟨kind, kind.code?, message, details⟩

def raised (kind : Kind) (code : Option Code) (message : String) (details : Details) : Report :=
  -- What comes from outside has a message only.
  if kind.isForeign then ⟨kind, none, message, []⟩
  else ⟨kind, kind.code?.or code, message, details⟩

def coded (kind : Kind) (code : Code) (message : String) (details : Details := []) : Report :=
  ⟨kind, some code, message, details⟩

end Report

def Value.AccessFault.report (f : Value.AccessFault) : Report :=
  .ofKind (match f with
    | .released => .value
    | _ => .type) f.message

def Value.Fault.report (f : Value.Fault) : Report :=
  .ofKind (match f with
    | .notText _ => .type
    | .base64 (.notAscii ..) => .encoding
    | .base64 _ => .value) f.message

def Varint.EncodeFault.report (f : Varint.EncodeFault) : Report := .ofKind .value f.message

def Varint.Fault.report (f : Varint.Fault) : Report :=
  .ofKind (match f with
    | .position _ => .index
    | _ => .value) f.message

def Value.EraseFault.report (f : Value.EraseFault) : Report :=
  .ofKind (match f with
    | .released => .value
    | _ => .type) f.message

end SenderRatchet
