import AdaptiveMsg.Amgen.GoTypes
import AdaptiveMsg.Results

/-!
# Amgen — the fields of a struct

`parse_fields` of `amgen-rs`: the Go name, the Go type and the tag of each field, or why the struct
has none.  The type is `go_type`'s, and `[]byte` for a field with `#[serde(with = "serde_bytes")]`,
whose type `serde_bytes_go_type` checks.

What `syn` parses is data here, with the errors that it has for an option's value.
-/

namespace AdaptiveMsg.Amgen

/-! ### Rust types -/

section syn

variable {τ : Type}

inductive GenericArgument (τ : Type) where
  | type (ty : τ)
  | other

inductive PathArguments (τ : Type) where
  | none
  | angleBracketed (args : List (GenericArgument τ))
  | parenthesized

structure PathSegment (τ : Type) where
  ident : Word
  arguments : PathArguments τ

def GenericArgument.type? : GenericArgument τ → Option τ
  | type ty => some ty
  | other => none

/-- The length of an array. -/
inductive Expr where
  /-- An integer literal, with its digits in base ten. -/
  | intLit (digits : Word)
  | other

/-- The types without a Go type. -/
inductive Unsupported where
  | reference
  | tuple
  | ptr
  | bareFn
  | never
  | traitObject
  | implTrait
  | macroType
  | infer
  | other
  deriving DecidableEq

end syn

/-- `syn::Type`. -/
inductive RustType where
  /-- A path, which may begin with a `<T as Trait>`. -/
  | path (qself : Bool) (segments : List (PathSegment RustType))
  | array (elem : RustType) (len : Expr)
  | slice (elem : RustType)
  | paren (elem : RustType)
  | group (elem : RustType)
  | unsupported (kind : Unsupported)

/-! ### The generator -/

section arguments

variable {τ : Type}

/-- The types between the angle brackets. -/
def genericTypes (segment : PathSegment τ) : Except String (List τ) :=
  match segment.arguments with
  | .angleBracketed args => .ok (args.filterMap GenericArgument.type?)
  | _ => .error "generic type requires angle brackets"

def singleGenericType (segment : PathSegment τ) : Except String τ := do
  match ← genericTypes segment with
  | [] => .error "missing generic type"
  | [first] => .ok first
  | _ => .error "expected a single generic type"

def twoGenericTypes (segment : PathSegment τ) : Except String (τ × τ) := do
  match ← genericTypes segment with
  | [] => .error "missing map key type"
  | [_] => .error "missing map value type"
  | [first, second] => .ok (first, second)
  | _ => .error "expected exactly two generic types"

def arrayLen : Expr → Except String Word
  | .intLit digits => .ok digits
  | .other => .error "array length must be an integer literal"

variable [SizeOf τ] {segment : PathSegment τ}

theorem sizeOf_genericTypes {types : List τ} (h : genericTypes segment = .ok types) :
    ∀ ty ∈ types, sizeOf ty < sizeOf segment := by
  intro ty hty
  unfold genericTypes at h
  split at h <;> cases h
  rename_i args hargs
  obtain ⟨arg, harg, htype⟩ := List.mem_filterMap.mp hty
  have hlt := List.sizeOf_lt_of_mem harg
  cases arg with
  | other => cases htype
  | type ty =>
      cases htype
      cases segment
      cases hargs
      simp only [GenericArgument.type.sizeOf_spec] at hlt
      simp only [PathSegment.mk.sizeOf_spec, PathArguments.angleBracketed.sizeOf_spec]
      omega

theorem sizeOf_singleGenericType {inner : τ} (h : singleGenericType segment = .ok inner) :
    sizeOf inner < sizeOf segment := by
  obtain ⟨types, htypes, h⟩ := bind_eq_ok.mp h
  have hlt := sizeOf_genericTypes htypes
  split at h <;> cases h
  exact hlt _ (List.mem_singleton_self _)

theorem sizeOf_twoGenericTypes {key value : τ} (h : twoGenericTypes segment = .ok (key, value)) :
    sizeOf key < sizeOf segment ∧ sizeOf value < sizeOf segment := by
  obtain ⟨types, htypes, h⟩ := bind_eq_ok.mp h
  have hlt := sizeOf_genericTypes htypes
  split at h <;> cases h
  exact ⟨hlt _ (by simp), hlt _ (by simp)⟩

end arguments

/-- What `go_type` makes of the last identifier of a path. -/
inductive PathKind where
  | scalar (goName : Word)
  | wide
  | option
  | vec
  | byteBuf
  | map
  | other
  deriving DecidableEq

def byteWord : Word := { text := "byte" }

def pathKind : String → PathKind
  | "String" => .scalar { text := "string" }
  | "bool" => .scalar { text := "bool" }
  | "i8" => .scalar { text := "int8" }
  | "i16" => .scalar { text := "int16" }
  | "i32" => .scalar { text := "int32" }
  | "i64" => .scalar { text := "int64" }
  | "u8" => .scalar { text := "uint8" }
  | "u16" => .scalar { text := "uint16" }
  | "u32" => .scalar { text := "uint32" }
  | "u64" => .scalar { text := "uint64" }
  | "f32" => .scalar { text := "float32" }
  | "f64" => .scalar { text := "float64" }
  | "isize" | "usize" | "i128" | "u128" => .wide
  | "Option" => .option
  | "Vec" => .vec
  | "ByteBuf" => .byteBuf
  | "BTreeMap" | "HashMap" => .map
  | _ => .other

def Unsupported.message : Unsupported → String
  | reference => "references are not supported; use owned types"
  | tuple => "tuple types are not supported"
  | ptr => "raw pointers are not supported"
  | bareFn => "function types are not supported"
  | never => "never type is not supported"
  | traitObject => "trait objects are not supported"
  | implTrait => "impl traits are not supported"
  | macroType => "macro types are not supported"
  | infer => "inferred types are not supported"
  | other => "unsupported type"

/-- Whether the type is a path ending in the name, without arguments. -/
def isNamed (name : String) : RustType → Bool
  | .path _ segments => segments.getLast?.any fun segment =>
      segment.ident.text = name && (segment.arguments matches .none)
  | _ => false

/-- The last segment of a path that is not qualified. -/
def lastSegment (qself : Bool) (segments : List (PathSegment RustType)) :
    Except String (PathSegment RustType) :=
  if qself then .error "qualified types are not supported"
  else
    match segments.getLast? with
    | none => .error "empty type path"
    | some segment => .ok segment

theorem sizeOf_lastSegment {qself : Bool} {segments : List (PathSegment RustType)}
    {segment : PathSegment RustType} (h : lastSegment qself segments = .ok segment) :
    sizeOf segment < sizeOf segments := by
  unfold lastSegment at h
  split at h
  · cases h
  · split at h <;> cases h
    exact List.sizeOf_lt_of_mem (List.mem_of_getLast? (by assumption))

def goType : RustType → Except String String
  | .path qself segments => do
      let ⟨segment, _⟩ ← attach (lastSegment qself segments)
      match pathKind segment.ident.text with
      | .scalar goName => .ok goName.text
      | .wide => .error (segment.ident.text ++ " is not supported; use a fixed-width integer")
      | .option =>
          let ⟨inner, _⟩ ← attach (singleGenericType segment)
          let innerGo ← goType inner
          .ok ("*" ++ innerGo)
      | .vec =>
          let ⟨inner, _⟩ ← attach (singleGenericType segment)
          if isNamed "u8" inner then
            .error ("Vec<u8> is encoded as an array of integers, which Go's []byte " ++
              "cannot decode; mark the field #[serde(with = \"serde_bytes\")], " ++
              "or use serde_bytes::ByteBuf inside other types")
          else
            let innerGo ← goType inner
            .ok ("[]" ++ innerGo)
      | .byteBuf => .ok "[]byte"
      | .map =>
          let ⟨(key, value), _⟩ ← attach (twoGenericTypes segment)
          let keyGo ← goType key
          let valueGo ← goType value
          .ok ("map[" ++ keyGo ++ "]" ++ valueGo)
      | .other => .ok segment.ident.text
  | .array elem len => do
      let len ← arrayLen len
      let inner ← goType elem
      .ok ("[" ++ len.text ++ "]" ++ inner)
  | .slice elem => do
      let inner ← goType elem
      .ok ("[]" ++ inner)
  | .paren elem => goType elem
  | .group elem => goType elem
  | .unsupported kind => .error kind.message
  termination_by ty => sizeOf ty
  decreasing_by
    all_goals simp_wf
    all_goals try omega
    all_goals have hsegment := sizeOf_lastSegment (by assumption)
    · have := sizeOf_singleGenericType (by assumption)
      omega
    · have := sizeOf_singleGenericType (by assumption)
      omega
    · have := (sizeOf_twoGenericTypes (by assumption)).1
      omega
    · have := (sizeOf_twoGenericTypes (by assumption)).2
      omega

def optionInner : RustType → Option RustType
  | .path _ segments => do
      let segment ← segments.getLast?
      if segment.ident.text ≠ "Option" then none
      else
        match segment.arguments with
        | .angleBracketed args => args.head?.bind GenericArgument.type?
        | _ => none
  | _ => none

def isByteVec : RustType → Bool
  | .path _ segments => segments.getLast?.any fun segment =>
      segment.ident.text = "Vec" && (singleGenericType segment).toOption.any (isNamed "u8")
  | _ => false

/-- The type of a marked field.  Go has no other `None` for a byte slice than nil. -/
def serdeBytesGoType (ty : RustType) : Except String String :=
  let inner := (optionInner ty).getD ty
  if isByteVec inner || isNamed "ByteBuf" inner then .ok "[]byte"
  else .error "serde_bytes fields must be Vec<u8>, ByteBuf, or an Option of either"

/-- An option of a serde attribute, with what `syn` makes of the value behind it. -/
structure SerdeOption where
  /-- The name of the option, if it is a single identifier. -/
  path : Option String
  litStr : Except String String
  /-- The value as an expression, if there is one. -/
  expr : Except String Unit

structure Attribute where
  path : Option String
  options : List SerdeOption
  /-- What `syn` says behind the last of the options. -/
  rest : Except String Unit

structure SerdeFieldAttrs where
  rename : Option String
  withPath : Option String

def serdeOption (out : SerdeFieldAttrs) (opt : SerdeOption) : Except String SerdeFieldAttrs :=
  match opt.path with
  | some "rename" =>
      if out.rename.isSome then .error "duplicate serde(rename)"
      else do
        let lit ← opt.litStr
        .ok { out with rename := some lit }
  | some "with" => do
      let lit ← opt.litStr
      .ok { out with withPath := some lit }
  | some "rename_all" => .error "serde(rename_all) is not supported; use per-field rename"
  | some "skip" | some "skip_serializing" | some "skip_deserializing"
  | some "skip_serializing_if" => .error "serde(skip) is not supported for amgen-rs"
  | _ => do
      opt.expr
      .ok out

def serdeFieldAttrs (attrs : List Attribute) : Except String SerdeFieldAttrs :=
  attrs.foldlM (fun out attr =>
    if attr.path ≠ some "serde" then .ok out
    else do
      let out ← attr.options.foldlM serdeOption out
      attr.rest
      .ok out) ⟨none, none⟩

def isSerdeBytesPath (path : String) : Bool :=
  path = "serde_bytes" || "::serde_bytes".toList.isSuffixOf path.toList

def isInitialism (value : String) : Bool :=
  value ∈ ["API", "ASCII", "CPU", "CSS", "DNS", "EOF", "GUID", "HTML", "HTTP", "HTTPS", "ID", "IP",
    "JSON", "LHS", "RHS", "QPS", "RAM", "RPC", "SLA", "SMTP", "SQL", "SSH", "TCP", "TLS", "TTL",
    "UDP", "UI", "UID", "UUID", "URI", "URL", "UTF8", "VM", "XML", "XMPP", "XSRF", "XSS"]

def goNamePart : List Char → List Char
  | [] => []
  | first :: chars =>
      let upper := (first :: chars).map Char.toUpper
      if isInitialism (String.ofList upper) then upper else first.toUpper :: chars

def toGoFieldName (name : String) : Except String String :=
  let parts := (name.toList.splitOn '_').filter fun part => part ≠ []
  if parts = [] then .error ("invalid field name " ++ name)
  else .ok (String.ofList (parts.flatMap goNamePart))

structure Field where
  ident : Option String
  attrs : List Attribute
  ty : RustType

inductive Fields where
  | named (named : List Field)
  | other

structure FieldDef where
  name : String
  ty : String
  tag : String
  deriving DecidableEq

def context {α : Type} (err : String) : Option α → Except String α
  | some a => .ok a
  | none => .error err

def parseField (field : Field) : Except String FieldDef := do
  let rustName ← context "unnamed field" field.ident
  let serde ← serdeFieldAttrs field.attrs
  let goName ← toGoFieldName rustName
  let ty ← (if serde.withPath.any isSerdeBytesPath then serdeBytesGoType field.ty
    else goType field.ty)
  .ok ⟨goName, ty, serde.rename.getD rustName⟩

def parseFields : Fields → Except String (List FieldDef)
  | .named named => named.mapM parseField
  | .other => .error "message structs must use named fields"

end AdaptiveMsg.Amgen
