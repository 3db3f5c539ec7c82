/-!
# Errors

The errors of `error.rs` that the modelled functions return.
-/

namespace AdaptiveMsg

/-- The kinds of I/O errors that the modelled functions tell apart. -/
inductive IoErrorKind where
  | unexpectedEof
  | invalidInput
  | unsupported
  | other
  deriving DecidableEq, Repr

inductive Error where
  | io (kind : IoErrorKind)
  | codec (message : String)
  | frameTooLarge (len : Nat)
  | unsupportedFrameVersion (version : UInt8)
  | unsupportedCodec (codec : UInt8)
  | noCommonCodec
  | tooManyCodecs (count : Nat)
  | badHandshakeMagic
  | compactFieldCount (expected got : Nat)
  | invalidMessage (message : String)
  | recvTimeout
  | typeMismatch (expected got : String)
  | closed
  | remote (code message : String)
  | concurrentRecv
  | resumeRejected (message : String)
  deriving DecidableEq, Repr

end AdaptiveMsg
