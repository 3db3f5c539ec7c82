import AdaptiveMsg.Amgen.Fields

/-!
# Amgen — where the Go types have byte slices

serde encodes a `Vec<u8>` as an array of integers, which Go's `[]byte` cannot decode, so the
generator asks for `serde_bytes` on the field, or for a `ByteBuf`.

`Maps` has the rules of `go_type` that are not errors.  It relates the types place by place.

* `goType_ok_iff`: the text that is written is that of the type mapped to.
* `byte_slices_iff`: which accepted fields have a byte slice only at a `ByteBuf` or when marked.
* `paren_u8_accepted`: `Vec<(u8)>`, whose parentheses the check does not see through.
-/

namespace AdaptiveMsg.Amgen

/-! ### The type mapped to -/

/-- The Go type of a Rust type, by the rules of `goType` that are not errors. -/
inductive Maps : RustType → GoType → Prop where
  | scalar {qself segments segment goName} (hlast : lastSegment qself segments = .ok segment)
      (hkind : pathKind segment.ident.text = .scalar goName) :
      Maps (.path qself segments) (.named goName)
  | option {qself segments segment inner g} (hlast : lastSegment qself segments = .ok segment)
      (hkind : pathKind segment.ident.text = .option)
      (hinner : singleGenericType segment = .ok inner) (hg : Maps inner g) :
      Maps (.path qself segments) (.pointer g)
  | vec {qself segments segment inner g} (hlast : lastSegment qself segments = .ok segment)
      (hkind : pathKind segment.ident.text = .vec)
      (hinner : singleGenericType segment = .ok inner) (hu8 : isNamed "u8" inner = false)
      (hg : Maps inner g) : Maps (.path qself segments) (.slice g)
  | byteBuf {qself segments segment} (hlast : lastSegment qself segments = .ok segment)
      (hkind : pathKind segment.ident.text = .byteBuf) :
      Maps (.path qself segments) (.slice (.named byteWord))
  | map {qself segments segment key value k v} (hlast : lastSegment qself segments = .ok segment)
      (hkind : pathKind segment.ident.text = .map)
      (htypes : twoGenericTypes segment = .ok (key, value)) (hk : Maps key k)
      (hv : Maps value v) : Maps (.path qself segments) (.map k v)
  | other {qself segments segment} (hlast : lastSegment qself segments = .ok segment)
      (hkind : pathKind segment.ident.text = .other) :
      Maps (.path qself segments) (.named segment.ident)
  | array {elem digits g} (hg : Maps elem g) : Maps (.array elem (.intLit digits)) (.array digits g)
  | slice {elem g} (hg : Maps elem g) : Maps (.slice elem) (.slice g)
  | paren {elem g} (hg : Maps elem g) : Maps (.paren elem) g
  | group {elem g} (hg : Maps elem g) : Maps (.group elem) g

theorem Maps.goType_eq {ty : RustType} {g : GoType} (h : Maps ty g) : goType ty = .ok g.text := by
  induction h with
  | scalar hlast hkind | byteBuf hlast hkind | other hlast hkind =>
    rw [goType, attach_bind hlast]
    dsimp only
    rw [hkind]
    rfl
  | option hlast hkind hinner _ ih =>
    rw [goType, attach_bind hlast]
    dsimp only
    rw [hkind, attach_bind hinner, ih]
    rfl
  | vec hlast hkind hinner hu8 _ ih =>
    rw [goType, attach_bind hlast]
    dsimp only
    rw [hkind]
    dsimp only
    rw [attach_bind hinner, hu8, ih]
    rfl
  | map hlast hkind htypes _ _ ihk ihv =>
    rw [goType, attach_bind hlast]
    dsimp only
    rw [hkind]
    dsimp only
    rw [attach_bind htypes, ihk]
    dsimp only [bind, Except.bind]
    rw [ihv]
    rfl
  | array _ ih | slice _ ih =>
    rw [goType, ih]
    rfl
  | paren _ ih | group _ ih => rw [goType, ih]

theorem goType_eq_ok {ty : RustType} {text : String} (h : goType ty = .ok text) :
    ∃ g, Maps ty g ∧ g.text = text := by
  induction ty using goType.induct generalizing text with
  | case1 qself segments ihInner ihKey ihValue =>
    rw [goType] at h
    obtain ⟨⟨segment, hlast⟩, -, h⟩ := bind_eq_ok.mp h
    dsimp only at h
    cases hkind : pathKind segment.ident.text with
    | scalar goName =>
      rw [hkind] at h
      cases h
      exact ⟨_, .scalar hlast hkind, rfl⟩
    | wide =>
      rw [hkind] at h
      cases h
    | option =>
      rw [hkind] at h
      obtain ⟨⟨inner, hinner⟩, -, h⟩ := bind_eq_ok.mp h
      obtain ⟨text, htext, h⟩ := bind_eq_ok.mp h
      cases h
      obtain ⟨g, hg, rfl⟩ := ihInner segment hlast inner hinner htext
      exact ⟨_, .option hlast hkind hinner hg, rfl⟩
    | vec =>
      rw [hkind] at h
      obtain ⟨⟨inner, hinner⟩, -, h⟩ := bind_eq_ok.mp h
      dsimp only at h
      split at h
      · cases h
      · rename_i hu8
        obtain ⟨text, htext, h⟩ := bind_eq_ok.mp h
        cases h
        obtain ⟨g, hg, rfl⟩ := ihInner segment hlast inner hinner htext
        exact ⟨_, .vec hlast hkind hinner (Bool.not_eq_true _ ▸ hu8) hg, rfl⟩
    | byteBuf =>
      rw [hkind] at h
      cases h
      exact ⟨_, .byteBuf hlast hkind, rfl⟩
    | map =>
      rw [hkind] at h
      obtain ⟨⟨⟨key, value⟩, htypes⟩, -, h⟩ := bind_eq_ok.mp h
      obtain ⟨keyGo, hkey, h⟩ := bind_eq_ok.mp h
      obtain ⟨valueGo, hvalue, h⟩ := bind_eq_ok.mp h
      cases h
      obtain ⟨k, hk, rfl⟩ := ihKey segment hlast key value htypes hkey
      obtain ⟨v, hv, rfl⟩ := ihValue segment hlast key value htypes hvalue
      exact ⟨_, .map hlast hkind htypes hk hv, rfl⟩
    | other =>
      rw [hkind] at h
      cases h
      exact ⟨_, .other hlast hkind, rfl⟩
  | case2 elem len ih =>
    rw [goType] at h
    obtain ⟨digits, hlen, h⟩ := bind_eq_ok.mp h
    obtain ⟨inner, hinner, h⟩ := bind_eq_ok.mp h
    cases h
    obtain ⟨g, hg, rfl⟩ := ih hinner
    cases len with
    | other => cases hlen
    | intLit digits =>
      cases hlen
      exact ⟨_, .array hg, rfl⟩
  | case3 elem ih =>
    rw [goType] at h
    obtain ⟨inner, hinner, h⟩ := bind_eq_ok.mp h
    cases h
    obtain ⟨g, hg, rfl⟩ := ih hinner
    exact ⟨_, .slice hg, rfl⟩
  | case4 elem ih =>
    rw [goType] at h
    obtain ⟨g, hg, rfl⟩ := ih h
    exact ⟨_, .paren hg, rfl⟩
  | case5 elem ih =>
    rw [goType] at h
    obtain ⟨g, hg, rfl⟩ := ih h
    exact ⟨_, .group hg, rfl⟩
  | case6 kind =>
    rw [goType] at h
    cases h

/-- The text that is written is that of the type mapped to. -/
theorem goType_ok_iff {ty : RustType} {text : String} :
    goType ty = .ok text ↔ ∃ g, Maps ty g ∧ g.text = text := by
  refine ⟨goType_eq_ok, ?_⟩
  rintro ⟨g, hg, rfl⟩
  exact hg.goType_eq

/-! ### Byte sequences -/

namespace RustType

/-- A part that the generator maps, inside any parentheses. -/
def child (step : GoType.Step) : RustType → Option RustType
  | path qself segments => do
      let segment ← (lastSegment qself segments).toOption
      match pathKind segment.ident.text, step with
      | .option, .elem | .vec, .elem => (singleGenericType segment).toOption
      | .map, .key => (twoGenericTypes segment).toOption.map Prod.fst
      | .map, .value => (twoGenericTypes segment).toOption.map Prod.snd
      | _, _ => none
  | array elem _ | slice elem => if step = .elem then some elem else none
  | paren elem | group elem => elem.child step
  | unsupported _ => none

/-- The elements of a `Vec` or a slice. -/
def seqElem : RustType → Option RustType
  | path qself segments => do
      let segment ← (lastSegment qself segments).toOption
      if pathKind segment.ident.text = .vec then (singleGenericType segment).toOption else none
  | slice elem => some elem
  | paren elem | group elem => elem.seqElem
  | array _ _ | unsupported _ => none

def isByteBuf : RustType → Bool
  | path qself segments => (lastSegment qself segments).toOption.any fun segment =>
      pathKind segment.ident.text = .byteBuf
  | paren elem | group elem => elem.isByteBuf
  | array _ _ | slice _ | unsupported _ => false

/-- Whether the type is, inside any parentheses, a path ending in one of the names. -/
def endsIn (names : List String) : RustType → Bool
  | path qself segments => (lastSegment qself segments).toOption.any fun segment =>
      segment.ident.text ∈ names
  | paren elem | group elem => elem.endsIn names
  | array _ _ | slice _ | unsupported _ => false

/-- A sequence of `u8`, which serde encodes as an array of integers. -/
def isU8Seq (ty : RustType) : Bool := ty.seqElem.any (endsIn ["u8"])

/-- A sequence whose elements have a name that `goType` writes as one of Go's byte. -/
def isByteSeq (ty : RustType) : Bool := ty.seqElem.any (endsIn ["u8", "byte", "uint8"])

section path

variable {qself : Bool} {segments : List (PathSegment RustType)} {segment : PathSegment RustType}
  (hlast : lastSegment qself segments = .ok segment)

include hlast

theorem child_path (step : GoType.Step) : (path qself segments).child step =
    match pathKind segment.ident.text, step with
    | .option, .elem | .vec, .elem => (singleGenericType segment).toOption
    | .map, .key => (twoGenericTypes segment).toOption.map Prod.fst
    | .map, .value => (twoGenericTypes segment).toOption.map Prod.snd
    | _, _ => none := by
  rw [child, hlast]
  rfl

theorem seqElem_path : (path qself segments).seqElem =
    if pathKind segment.ident.text = .vec then (singleGenericType segment).toOption else none := by
  rw [seqElem, hlast]
  rfl

theorem isByteBuf_path :
    (path qself segments).isByteBuf = decide (pathKind segment.ident.text = .byteBuf) := by
  rw [isByteBuf, hlast]
  rfl

theorem endsIn_path (names : List String) :
    (path qself segments).endsIn names = decide (segment.ident.text ∈ names) := by
  rw [endsIn, hlast]
  rfl

end path

end RustType

/-- Of the names of a byte, only `u8` is one of Rust's. -/
theorem pathKind_byte {name : String} (h : name ∈ ["u8", "byte", "uint8"]) :
    pathKind name = .scalar { text := "uint8" } ∨ pathKind name = .other := by
  simp only [List.mem_cons, List.not_mem_nil, or_false] at h
  rcases h with rfl | rfl | rfl
  · exact .inl (by decide)
  · exact .inr (by decide)
  · exact .inr (by decide)

theorem isByte_of_scalar {name : String} {goName : Word} (h : pathKind name = .scalar goName) :
    name ∈ ["u8", "byte", "uint8"] ↔ (GoType.named goName).isByte = true := by
  unfold pathKind at h
  split at h <;> cases h <;> decide

theorem isByte_of_other {name : Word} (h : pathKind name.text = .other) :
    name.text ∈ ["u8", "byte", "uint8"] ↔ (GoType.named name).isByte = true := by
  have hu8 : name.text ≠ "u8" := by
    intro hu8
    rw [hu8] at h
    cases h
  simp [hu8, GoType.isByte]

namespace Maps

variable {ty : RustType} {g : GoType}

theorem child (h : Maps ty g) (step : GoType.Step) :
    Matched GoType.child Maps (ty.child step) (g.child step) := by
  induction h with
  | scalar hlast hkind | other hlast hkind =>
    cases step <;> simp [RustType.child_path hlast, hkind, GoType.child]
  | byteBuf hlast hkind =>
    -- the element is a leaf of the Go type, and no part of the Rust type
    cases step <;> simp [RustType.child_path hlast, hkind, GoType.child]
  | option hlast hkind hinner hg | vec hlast hkind hinner _ hg =>
    rw [RustType.child_path hlast, hkind, hinner]
    cases step <;> simp [Except.toOption, GoType.child, hg]
  | map hlast hkind htypes hk hv =>
    rw [RustType.child_path hlast, hkind, htypes]
    cases step <;> simp [Except.toOption, GoType.child, hk, hv]
  | array hg | slice hg => cases step <;> simp [RustType.child, GoType.child, hg]
  | paren _ ih | group _ ih => exact ih

theorem isByte_iff (h : Maps ty g) :
    ty.endsIn ["u8", "byte", "uint8"] = true ↔ g.isByte = true := by
  induction h with
  | scalar hlast hkind =>
    rw [RustType.endsIn_path hlast, decide_eq_true_iff]
    exact isByte_of_scalar hkind
  | other hlast hkind =>
    rw [RustType.endsIn_path hlast, decide_eq_true_iff]
    exact isByte_of_other hkind
  | option hlast hkind | vec hlast hkind | byteBuf hlast hkind | map hlast hkind =>
    rw [RustType.endsIn_path hlast, decide_eq_true_iff]
    refine ⟨fun hmem => ?_, fun hbyte => ?_⟩
    · rcases pathKind_byte hmem with h | h
      · cases hkind.symm.trans h
      · cases hkind.symm.trans h
    · cases hbyte
  | array | slice => simp [RustType.endsIn, GoType.isByte]
  | paren _ ih | group _ ih => exact ih

theorem isByteSlice_iff (h : Maps ty g) :
    g.isByteSlice = true ↔ ty.isByteBuf = true ∨ ty.isByteSeq = true := by
  induction h with
  | vec hlast hkind hinner _ hg =>
    rw [GoType.isByteSlice, ← hg.isByte_iff, RustType.isByteBuf_path hlast, RustType.isByteSeq,
      RustType.seqElem_path hlast, if_pos hkind, hinner, hkind]
    simp [Except.toOption]
  | slice hg =>
    rw [GoType.isByteSlice, ← hg.isByte_iff]
    simp [RustType.isByteBuf, RustType.isByteSeq, RustType.seqElem]
  | byteBuf hlast hkind =>
    rw [RustType.isByteBuf_path hlast, hkind]
    exact ⟨fun _ => .inl rfl, fun _ => rfl⟩
  | scalar hlast hkind | option hlast hkind | map hlast hkind | other hlast hkind =>
    rw [RustType.isByteBuf_path hlast, RustType.isByteSeq, RustType.seqElem_path hlast, hkind]
    simp [GoType.isByteSlice]
  | array => simp [RustType.isByteBuf, RustType.isByteSeq, RustType.seqElem, GoType.isByteSlice]
  | paren _ ih | group _ ih => exact ih

theorem not_byteSeq_of_byteBuf (h : Maps ty g) (hbuf : ty.isByteBuf = true) :
    ty.isByteSeq = false := by
  induction h with
  | byteBuf hlast hkind =>
    rw [RustType.isByteSeq, RustType.seqElem_path hlast, hkind]
    rfl
  | scalar hlast hkind | option hlast hkind | vec hlast hkind | map hlast hkind
  | other hlast hkind =>
    rw [RustType.isByteBuf_path hlast, hkind] at hbuf
    cases hbuf
  | array | slice => cases hbuf
  | paren _ ih | group _ ih => exact ih hbuf

end Maps

theorem RustType.endsIn_mono {names names' : List String} (hnames : names ⊆ names') :
    ∀ ty : RustType, ty.endsIn names = true → ty.endsIn names' = true
  | .path qself segments, h => by
    simp only [endsIn, Option.any_eq_true] at h ⊢
    obtain ⟨segment, hlast, hmem⟩ := h
    exact ⟨segment, hlast, by simpa using hnames (by simpa using hmem)⟩
  | .paren elem, h | .group elem, h => endsIn_mono hnames elem h

theorem RustType.isByteSeq_of_isU8Seq {ty : RustType} (h : ty.isU8Seq = true) :
    ty.isByteSeq = true := by
  unfold isU8Seq at h
  unfold isByteSeq
  simp only [Option.any_eq_true] at h ⊢
  obtain ⟨elem, helem, hu8⟩ := h
  exact ⟨elem, helem, endsIn_mono (by simp) elem hu8⟩

/-- Both demands on an unmarked field are one on its Rust type: a Go byte slice that is no `ByteBuf`
stands where the elements of a sequence have a byte's name. -/
theorem Maps.byteSlices_iff {ty : RustType} {g : GoType} (h : Maps ty g) :
    ((∀ place s, part GoType.child place g = some s → s.isByteSlice = true →
        ∃ t, part RustType.child place ty = some t ∧ t.isByteBuf = true) ∧
      ∀ place t, part RustType.child place ty = some t → t.isU8Seq = false) ↔
    ∀ place t, part RustType.child place ty = some t → t.isByteSeq = false := by
  have hpart := matched_part (fun _ _ h => Maps.child h) h
  constructor
  · rintro ⟨hbuf, -⟩ place t ht
    obtain ⟨s, hs, hts⟩ := (hpart place).of_left ht
    by_contra hseq
    rw [Bool.not_eq_false] at hseq
    obtain ⟨t', ht', hbuf⟩ := hbuf place s hs (hts.isByteSlice_iff.mpr (.inr hseq))
    obtain rfl : t = t' := Option.some.inj (ht.symm.trans ht')
    rw [hts.not_byteSeq_of_byteBuf hbuf] at hseq
    cases hseq
  · intro hseq
    refine ⟨fun place s hs hslice => ?_, fun place t ht => ?_⟩
    · have hd : s.child .elem ≠ none := by
        cases s <;> simp [GoType.isByteSlice, GoType.child] at hslice ⊢
      obtain ⟨t, ht, hts⟩ := (hpart place).of_right hs hd
      rcases hts.isByteSlice_iff.mp hslice with hbuf | hbyte
      · exact ⟨t, ht, hbuf⟩
      · rw [hseq place t ht] at hbyte
        cases hbyte
    · by_contra hu8
      rw [Bool.not_eq_false] at hu8
      have hbyte := RustType.isByteSeq_of_isU8Seq hu8
      rw [hseq place t ht] at hbyte
      cases hbyte

/-! ### Fields -/

/-- Whether the field has `#[serde(with = "serde_bytes")]`. -/
def Field.isMarked (field : Field) : Bool :=
  (serdeFieldAttrs field.attrs).toOption.any fun serde => serde.withPath.any isSerdeBytesPath

/-- The field's Go type has a byte slice only at a `ByteBuf`, and its Rust type no sequence of `u8`,
unless the field is marked. -/
def Field.BytesMarked (field : Field) (g : GoType) : Prop :=
  (∀ place s, part GoType.child place g = some s → s.isByteSlice = true →
    field.isMarked = true ∨ ∃ t, part RustType.child place field.ty = some t ∧ t.isByteBuf = true) ∧
  (field.isMarked = false →
    ∀ place t, part RustType.child place field.ty = some t → t.isU8Seq = false)

theorem parseField_ty {field : Field} {d : FieldDef} (h : parseField field = .ok d) :
    ∃ g : GoType, g.text = d.ty ∧
      (field.isMarked = true ∨ field.isMarked = false ∧ Maps field.ty g) := by
  obtain ⟨rustName, -, h⟩ := bind_eq_ok.mp h
  obtain ⟨serde, hserde, h⟩ := bind_eq_ok.mp h
  obtain ⟨goName, -, h⟩ := bind_eq_ok.mp h
  obtain ⟨ty, hty, h⟩ := bind_eq_ok.mp h
  cases h
  have hmarked : field.isMarked = serde.withPath.any isSerdeBytesPath := by
    rw [Field.isMarked, hserde]
    rfl
  rw [hmarked]
  split at hty
  · rename_i hwith
    unfold serdeBytesGoType at hty
    dsimp only at hty
    split at hty <;> cases hty
    exact ⟨.slice (.named byteWord), rfl, .inl hwith⟩
  · rename_i hwith
    obtain ⟨g, hg, rfl⟩ := goType_ok_iff.mp hty
    exact ⟨g, rfl, .inr ⟨by simpa using hwith, hg⟩⟩

/-- **When the byte slices of the accepted fields are marked.** -/
theorem byte_slices_iff {fields : Fields} {defs : List FieldDef}
    (h : parseFields fields = .ok defs) :
    ∃ named, fields = .named named ∧ List.Forall₂ (fun field d => ∃ g : GoType,
      (∀ g' : GoType, g'.text = d.ty ↔ g' = g) ∧
      (field.BytesMarked g ↔ field.isMarked = true ∨
        ∀ place t, part RustType.child place field.ty = some t → t.isByteSeq = false))
      named defs := by
  cases fields with
  | other => cases h
  | named named =>
      refine ⟨named, rfl, (forall₂_of_mapM h).imp fun field d hd => ?_⟩
      obtain ⟨g, htext, hfield⟩ := parseField_ty hd
      refine ⟨g, fun g' => ⟨fun h => GoType.text_inj (h.trans htext.symm), fun h => h ▸ htext⟩, ?_⟩
      rcases hfield with hmarked | ⟨hmarked, hmaps⟩
      · simp [Field.BytesMarked, hmarked]
      · simpa [Field.BytesMarked, hmarked] using hmaps.byteSlices_iff

/-- A type that is one identifier. -/
def RustType.ident (name : Word) : RustType := .path false [⟨name, .none⟩]

/-- `Vec<elem>`. -/
def RustType.vecOf (elem : RustType) : RustType :=
  .path false [⟨{ text := "Vec" }, .angleBracketed [.type elem]⟩]

def u8 : RustType := .ident { text := "u8" }

def byteBuf : RustType := .ident { text := "ByteBuf" }

/-- `#[serde(with = "serde_bytes")] data: Vec<u8>`. -/
def dataField : Field where
  ident := some "data"
  attrs := [⟨some "serde", [⟨some "with", .ok "serde_bytes", .ok ()⟩], .ok ()⟩]
  ty := .vecOf u8

/-- `chunks: Vec<ByteBuf>`. -/
def chunksField : Field := ⟨some "chunks", [], .vecOf byteBuf⟩

theorem goType_chunks : goType (.vecOf byteBuf) = .ok "[][]byte" :=
  (Maps.vec rfl rfl rfl rfl (.byteBuf rfl rfl)).goType_eq

theorem parseField_data : parseField dataField = .ok ⟨"Data", "[]byte", "data"⟩ := by rfl

theorem parseField_chunks : parseField chunksField = .ok ⟨"Chunks", "[][]byte", "chunks"⟩ := by
  unfold parseField
  rw [show chunksField.ty = .vecOf byteBuf from rfl, goType_chunks]
  rfl

theorem byte_slices_iff_chunks :
    parseFields (.named [dataField, chunksField]) =
      .ok [⟨"Data", "[]byte", "data"⟩, ⟨"Chunks", "[][]byte", "chunks"⟩] ∧
    ∀ g : GoType, g.text = "[][]byte" → chunksField.BytesMarked g := by
  have hparse : parseFields (.named [dataField, chunksField]) =
      .ok [⟨"Data", "[]byte", "data"⟩, ⟨"Chunks", "[][]byte", "chunks"⟩] := by
    rw [parseFields, List.mapM_cons, List.mapM_cons, parseField_data, parseField_chunks]
    rfl
  refine ⟨hparse, fun g hg => ?_⟩
  obtain ⟨named, hnamed, hall⟩ := byte_slices_iff hparse
  cases hnamed
  rcases hall with _ | ⟨-, _ | ⟨⟨g', hg', hiff⟩, -⟩⟩
  obtain rfl := (hg' g).mp hg
  refine hiff.mpr (.inr ?_)
  rintro (_ | ⟨step, _ | ⟨step', place⟩⟩) t ht
  · cases ht
    rfl
  · cases step <;> cases ht
    rfl
  · cases step <;> cases step' <;> cases ht

/-- `data: Vec<(u8)>`. -/
def parenField : Field := ⟨some "data", [], .vecOf (.paren u8)⟩

/-- `isNamed` stops at the parentheses of `Vec<(u8)>`, and `goType` does not. -/
theorem paren_u8_accepted : parseFields (.named [parenField]) = .ok [⟨"Data", "[]uint8", "data"⟩] ∧
    ∀ g : GoType, g.text = "[]uint8" → ¬parenField.BytesMarked g := by
  have hmaps : Maps parenField.ty (.slice (.named { text := "uint8" })) :=
    .vec rfl rfl rfl rfl (.paren (.scalar rfl rfl))
  constructor
  · rw [parseFields, List.mapM_cons, parseField, hmaps.goType_eq]
    rfl
  · rintro g hg ⟨hbuf, -⟩
    obtain rfl : g = .slice (.named { text := "uint8" }) :=
      GoType.text_inj (hg.trans rfl)
    rcases hbuf [] _ rfl rfl with hmarked | ⟨t, ht, hbuf⟩
    · cases hmarked
    · cases ht
      cases hbuf

end AdaptiveMsg.Amgen
