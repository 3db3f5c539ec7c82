import AdaptiveMsg.Results
import Mathlib.Data.List.Basic

/-!
# Amgen — the wire names of the generated Go types

`amgen-rs` writes Go types for the structs with `#[am::message]` in a Rust file.  The Rust wire name
is `ns.name`, or `ns.module.Type` with the leaf of `module_path!()`; a Go type without a method
`WireName` has `am.package.Type`.  The generator has no `module_path!()`: it takes the name of the
module from an inline module, from a `#[path]` in the `lib.rs` beside the file, or from the directory.

`wire_names_agree_iff`: the two names of a struct are equal exactly when it has a `name`, the module
is inline, a `#[path]` spelled in one of two ways declares it, or the directory has its name.
`plain_mod_differs`: a `lib.rs` with `pub mod message;`.
-/

namespace AdaptiveMsg.Amgen

/-! ### Paths -/

/-- A file name, as the file system has it. -/
abbrev OsString := List UInt8

def ofStr (name : String) : OsString := name.toUTF8.data.toList

def toStr (name : OsString) : Option String := String.fromUTF8? name.toByteArray

def slash : UInt8 := 0x2F

def dot : UInt8 := 0x2E

inductive Component where
  | rootDir
  | curDir
  | parentDir
  | normal (name : OsString)
  deriving DecidableEq

/-- `Path::components` on Unix, which two paths are compared by: a dot counts only in front. -/
def components (path : OsString) : List Component :=
  let parts := path.splitOn slash
  let body := parts.filterMap fun part =>
    if part = [] ∨ part = [dot] then none
    else if part = [dot, dot] then some .parentDir
    else some (.normal part)
  if path.head? = some slash then .rootDir :: body
  else if parts.head? = some [dot] then .curDir :: body
  else body

/-- The part of a file name before its last dot, unless the name starts there. -/
def fileStem (name : OsString) : OsString :=
  let stem := ((name.reverse.dropWhile (· ≠ dot)).drop 1).reverse
  if stem = [] then name else stem

/-- A canonical path of a file: the directories from the root, and the file's name. -/
structure FilePath where
  dir : List OsString
  file : OsString
  deriving DecidableEq

def FilePath.components (path : FilePath) : List Component :=
  .rootDir :: (path.dir ++ [path.file]).map .normal

def defaultOutputPath (input : FilePath) : FilePath :=
  { input with file := fileStem input.file ++ dot :: ofStr "go" }

/-! ### Rust sources -/

structure MessageAttr where
  ns : Option String
  name : Option String
  deriving DecidableEq

inductive Item where
  /-- A module, with its content if it is inline, and its `#[path]` string literals. -/
  | mod (ident : String) (content : Option (List Item)) (paths : List String)
  /-- A struct with `#[am::message]`. -/
  | message (ident : String) (attr : MessageAttr)
  | other

/-- Whether a `#[path]` is the file's name or its whole path. -/
def pathNames (input : FilePath) (attr : String) : Bool :=
  let attrPath := components (ofStr attr)
  attrPath = [.normal input.file] ∨ attrPath = input.components

/-- Whether the item is a module without content that a `#[path]` binds to the file. -/
def Item.namesFile (input : FilePath) : Item → Bool
  | .mod _ none paths => paths.any fun attr => pathNames input attr
  | _ => false

def Item.modIdent : Item → Option String
  | .mod ident _ _ => some ident
  | _ => none

/-- What a crate has where the generator looks. -/
structure Layout where
  input : FilePath
  /-- The items of the file. -/
  items : List Item
  /-- The items of the `lib.rs` beside it, if there is one, or why it cannot be read. -/
  lib : Option (Except String (List Item))
  /-- The name under which the crate declares the file's module. -/
  declared : String
  declares : ∀ libItems item, lib = some (.ok libItems) → item ∈ libItems →
    item.namesFile input = true → item.modIdent = some declared

/-- The inline modules of a file. -/
def inlineModules (items : List Item) : List (String × List Item) :=
  items.filterMap fun
    | .mod ident (some content) _ => some (ident, content)
    | _ => none

/-- The structs with `#[am::message]`. -/
def messagesOf (items : List Item) : List (String × MessageAttr) :=
  items.filterMap fun
    | .message ident attr => some (ident, attr)
    | _ => none

/-! ### The generator -/

def packageNameFromOutput (output : FilePath) : Except String String :=
  match (output.dir.getLast?.bind toStr).filter fun name => name ≠ "" with
  | some name => .ok name
  | none =>
    match (toStr (fileStem output.file)).filter fun stem => stem ≠ "" with
    | some stem => .ok stem
    | none => .error "cannot infer package name from output path"

def moduleNameFromLib (input : FilePath) :
    Option (Except String (List Item)) → Except String (Option String)
  | none => .ok none
  | some (.error err) => .error err
  | some (.ok items) => .ok ((items.find? (Item.namesFile input)).bind Item.modIdent)

def findMessageScope (layout : Layout) (output : FilePath) : Except String (String × List Item) :=
  match inlineModules layout.items with
  | [] => do
    match ← moduleNameFromLib layout.input layout.lib with
    | some moduleName => .ok (moduleName, layout.items)
    | none =>
      let moduleName ← packageNameFromOutput output
      .ok (moduleName, layout.items)
  | [module] => .ok module
  | _ => .error "expected exactly one inline module containing messages"

/-- A generated type, without its fields. -/
structure MessageDef where
  name : String
  wireName : Option String
  deriving DecidableEq

def computeWireName (moduleName typeName : String) (attr : MessageAttr) (force : Bool) :
    Option String :=
  let ns := attr.ns.getD "am"
  let base := attr.name.getD (moduleName ++ "." ++ typeName)
  let hasOverride := attr.name.isSome || attr.ns.any fun ns => ns ≠ "am"
  if force || hasOverride then some (ns ++ "." ++ base) else none

def collectMessages (moduleName : String) (items : List Item) (forceWireName : Bool) :
    List MessageDef :=
  (messagesOf items).map fun m => ⟨m.1, computeWireName moduleName m.1 m.2 forceWireName⟩

/-- The Go package and its types. -/
def run (layout : Layout) : Except String (String × List MessageDef) := do
  let output := defaultOutputPath layout.input
  let (moduleName, items) ← findMessageScope layout output
  let packageName ← packageNameFromOutput output
  let messages := collectMessages moduleName items (packageName ≠ moduleName)
  if messages = [] then .error ("no #[am::message] structs found in module " ++ moduleName)
  else .ok (packageName, messages)

/-! ### The two names -/

/-- The name that the Go runtime uses. -/
def MessageDef.goWireName (packageName : String) (d : MessageDef) : String :=
  d.wireName.getD ("am." ++ packageName ++ "." ++ d.name)

/-- `wire_name_static` of the `message` macro. -/
def wireNameStatic (moduleLeaf name : String) (attr : MessageAttr) : String :=
  attr.ns.getD "am" ++ "." ++ attr.name.getD (moduleLeaf ++ "." ++ name)

namespace Layout

variable (layout : Layout)

/-- The last part of `module_path!()` at the messages. -/
def moduleLeaf : String :=
  match inlineModules layout.items with
  | module :: _ => module.1
  | [] => layout.declared

/-- The messages of the inline module, or else of the file. -/
def messages : List (String × MessageAttr) :=
  match inlineModules layout.items with
  | module :: _ => messagesOf module.2
  | [] => messagesOf layout.items

/-- A `#[path]` in the `lib.rs` beside the file declares it. -/
def DeclaredByPath : Prop :=
  ∃ libItems, layout.lib = some (.ok libItems) ∧ ∃ item ∈ libItems, item.namesFile layout.input

/-- The name of the output's directory, or else the stem of its file. -/
def outputName : Option String :=
  ((layout.input.dir.getLast?.bind toStr).filter fun name => name ≠ "").or
    ((toStr (fileStem (defaultOutputPath layout.input).file)).filter fun stem => stem ≠ "")

end Layout

/-! ### When they agree -/

/-- The force flag and the override test leave a type without `WireName` only where Go's default is
`ns.module.Type`. -/
theorem goWireName_computed (packageName moduleName typeName : String) (attr : MessageAttr) :
    MessageDef.goWireName packageName ⟨typeName,
        computeWireName moduleName typeName attr (packageName ≠ moduleName)⟩ =
      wireNameStatic moduleName typeName attr := by
  unfold MessageDef.goWireName computeWireName
  dsimp only
  split
  · rfl
  · rename_i hdefault
    simp only [Bool.or_eq_true, decide_eq_true_eq, not_or, Decidable.not_not, Bool.not_eq_true,
      Option.isSome_eq_false_iff, Option.isNone_iff_eq_none] at hdefault
    obtain ⟨hpackage, hname, hns⟩ := hdefault
    have hns : attr.ns.getD "am" = "am" := by
      cases h : attr.ns with
      | none => rfl
      | some ns => simpa [h] using hns
    rw [wireNameStatic, hns, hname, hpackage, Option.getD_none, Option.getD_none]
    simp only [String.append_assoc]
    rfl

/-- The macro's name tells the modules apart, unless the struct has a name of its own. -/
theorem wireNameStatic_inj (moduleName moduleLeaf name : String) (attr : MessageAttr) :
    wireNameStatic moduleName name attr = wireNameStatic moduleLeaf name attr ↔
      attr.name.isSome = true ∨ moduleName = moduleLeaf := by
  unfold wireNameStatic
  cases attr.name with
  | some own => simp
  | none => simp [String.append_left_inj, String.append_right_inj]

theorem packageName_eq {layout : Layout} {packageName : String}
    (h : packageNameFromOutput (defaultOutputPath layout.input) = .ok packageName) :
    layout.outputName = some packageName := by
  simp only [packageNameFromOutput] at h
  simp only [Layout.outputName]
  split at h
  · rename_i name hname
    cases h
    have hdir : ((layout.input.dir.getLast?.bind toStr).filter fun name => name ≠ "") =
        some packageName := hname
    rw [hdir]
    rfl
  · rename_i hnone
    have hdir : ((layout.input.dir.getLast?.bind toStr).filter fun name => name ≠ "") = none := hnone
    split at h <;> cases h
    rename_i hstem
    rw [hdir, Option.none_or]
    exact hstem

/-- The module that the lookup in `lib.rs` finds is the file's. -/
theorem moduleNameFromLib_eq {layout : Layout} {found : Option String}
    (h : moduleNameFromLib layout.input layout.lib = .ok found) :
    (layout.DeclaredByPath ∧ found = some layout.declared) ∨
      (¬layout.DeclaredByPath ∧ found = none) := by
  cases hlib : layout.lib with
  | none =>
      rw [hlib] at h
      cases h
      refine .inr ⟨?_, rfl⟩
      rintro ⟨libItems, hlib', -⟩
      rw [hlib] at hlib'
      cases hlib'
  | some lib =>
      rw [hlib] at h
      cases lib with
      | error err => cases h
      | ok libItems =>
          cases h
          cases hfind : libItems.find? (Item.namesFile layout.input) with
          | none =>
              refine .inr ⟨?_, rfl⟩
              rintro ⟨libItems', hlib', item, hmem, hnames⟩
              obtain rfl : libItems = libItems' := by simpa [hlib] using hlib'
              exact List.find?_eq_none.mp hfind item hmem hnames
          | some item =>
              have hmem := List.mem_of_find?_eq_some hfind
              have hnames := List.find?_some hfind
              exact .inl ⟨⟨libItems, hlib, item, hmem, hnames⟩,
                layout.declares libItems item hlib hmem hnames⟩

/-- The scope found has the messages, and its module is theirs unless it is taken from a directory
of another name. -/
theorem findMessageScope_eq {layout : Layout} {packageName moduleName : String} {items : List Item}
    (hp : packageNameFromOutput (defaultOutputPath layout.input) = .ok packageName)
    (h : findMessageScope layout (defaultOutputPath layout.input) = .ok (moduleName, items)) :
    messagesOf items = layout.messages ∧
      (moduleName = layout.moduleLeaf ↔ inlineModules layout.items ≠ [] ∨ layout.DeclaredByPath ∨
        layout.outputName = some layout.declared) := by
  rw [packageName_eq hp]
  simp only [findMessageScope] at h
  simp only [Layout.messages, Layout.moduleLeaf]
  split at h
  · rename_i hnil
    rw [hnil]
    obtain ⟨found, hfound, h⟩ := bind_eq_ok.mp h
    rcases moduleNameFromLib_eq hfound with ⟨hpath, rfl⟩ | ⟨hpath, rfl⟩
    · cases h
      simp [hpath]
    · obtain ⟨name, hname, h⟩ := bind_eq_ok.mp h
      obtain rfl : packageName = name := Except.ok.inj (hp.symm.trans hname)
      cases h
      simp [hpath]
  · rename_i module hone
    cases h
    rw [hone]
    simp
  · cases h

/-- What a run generates: the types of the messages in the scope found. -/
theorem run_eq_ok {layout : Layout} {packageName : String} {defs : List MessageDef}
    (h : run layout = .ok (packageName, defs)) : ∃ moduleName items,
      findMessageScope layout (defaultOutputPath layout.input) = .ok (moduleName, items) ∧
      packageNameFromOutput (defaultOutputPath layout.input) = .ok packageName ∧
      defs = collectMessages moduleName items (packageName ≠ moduleName) := by
  obtain ⟨⟨moduleName, items⟩, hscope, h⟩ := bind_eq_ok.mp h
  obtain ⟨package, hpackage, h⟩ := bind_eq_ok.mp h
  dsimp only at h
  split at h <;> cases h
  exact ⟨moduleName, items, hscope, hpackage, rfl⟩

/-- **When the Go name of a message is its Rust name.** -/
theorem wire_names_agree_iff (layout : Layout) {packageName : String} {defs : List MessageDef}
    (h : run layout = .ok (packageName, defs)) :
    defs.map MessageDef.name = layout.messages.map Prod.fst ∧
    ∀ (i : Nat) (d : MessageDef) (name : String) (attr : MessageAttr), defs[i]? = some d →
      layout.messages[i]? = some (name, attr) →
      (d.goWireName packageName = wireNameStatic layout.moduleLeaf name attr ↔
        attr.name.isSome = true ∨ inlineModules layout.items ≠ [] ∨ layout.DeclaredByPath ∨
          layout.outputName = some layout.declared) := by
  obtain ⟨moduleName, items, hscope, hpackage, rfl⟩ := run_eq_ok h
  obtain ⟨hmessages, hmodule⟩ := findMessageScope_eq hpackage hscope
  rw [collectMessages, hmessages]
  refine ⟨by simp [Function.comp_def], fun i d name attr hd hm => ?_⟩
  rw [List.getElem?_map, hm] at hd
  cases hd
  rw [goWireName_computed, wireNameStatic_inj, hmodule]

/-- A file in a directory `server`, beside a `lib.rs`. -/
def beside (lib : Item) (declared : String) (declares : lib.namesFile
    ⟨[ofStr "server"], ofStr "message.rs"⟩ = true → lib.modIdent = some declared) :
    Layout where
  input := ⟨[ofStr "server"], ofStr "message.rs"⟩
  items := [.other, .message "HelloRequest" ⟨none, none⟩]
  lib := some (.ok [lib])
  declared := declared
  declares := by
    rintro libItems item hlib hmem hnames
    cases hlib
    obtain rfl := List.mem_singleton.mp hmem
    exact declares hnames

theorem wire_names_agree_iff_path :
    run (beside (.mod "hello" none ["message.rs"]) "hello" fun _ => rfl) =
      .ok ("server", [⟨"HelloRequest", some "am.hello.HelloRequest"⟩]) ∧
    (MessageDef.goWireName "server" ⟨"HelloRequest", some "am.hello.HelloRequest"⟩ =
      wireNameStatic "hello" "HelloRequest" ⟨none, none⟩) := by
  have hrun : run (beside (.mod "hello" none ["message.rs"]) "hello" fun _ => rfl) =
      .ok ("server", [⟨"HelloRequest", some "am.hello.HelloRequest"⟩]) := by rfl
  refine ⟨hrun, ((wire_names_agree_iff _ hrun).2 0 _ "HelloRequest" ⟨none, none⟩ rfl rfl).mpr ?_⟩
  exact .inr (.inr (.inl ⟨_, rfl, _, List.mem_singleton_self _, rfl⟩))

/-- `pub mod message;` in the `lib.rs` beside `server/message.rs`. -/
theorem plain_mod_differs : ∃ layout : Layout, layout.lib = some (.ok [.mod "message" none []]) ∧
    layout.declared = "message" ∧ run layout = .ok ("server", [⟨"HelloRequest", none⟩]) ∧
    MessageDef.goWireName "server" ⟨"HelloRequest", none⟩ = "am.server.HelloRequest" ∧
    wireNameStatic layout.moduleLeaf "HelloRequest" ⟨none, none⟩ = "am.message.HelloRequest" :=
  ⟨beside (.mod "message" none []) "message" fun _ => rfl, rfl, rfl, rfl, rfl, rfl⟩

end AdaptiveMsg.Amgen
