import X86OnArm.Foundation.FileTree

/-! # Assembly of the guest image

`assemble` copies a base tree and the store paths of its closure below one root,
then walks the copy and makes every link into the store relative. The walk keeps a
stack of directories, lists each one when it comes to it, and sees the links it has
already replaced.
-/

namespace X86OnArm.Guest

open Foundation Foundation.PosixPath

variable {γ : Type}

def storeText : Text := text "/nix/store/"

/-- `target.startswith("/nix/store/")`. -/
def isStoreTarget (target : Text) : Bool := storeText.isPrefixOf target

/-- The relative target a link in `directory` gets in the place of a store path. -/
def relativeTarget (cwd : Text) (root directory : Path) (target : Text) : Text :=
  relpath cwd (child (pathOf root) target.tail) (pathOf directory)

/-- `mkdir(parents=True, exist_ok=True)` for one name: the real path of the directory. -/
def ensureDirectory (fs : FileSystem γ) (directory : Path) (name : Text) :
    Option (FileSystem γ × Path) :=
  match fs.resolve FileSystem.maxLinks directory [name] with
  | some path => if fs.isDirectory path then some (fs, path) else none
  | none =>
      (fs.addEntry directory name (.directory true)).map fun fs => (fs, directory ++ [name])

/-- The store paths of the graphs, without the base. -/
def dependencies (base : Path) (graphs : List (List Text)) : List Text :=
  sortedSet (graphs.flatten.filter fun line => isStoreTarget line && line != pathOf base)

/-- `Path(dependency).name`. -/
def dependencyName (dependency : Text) : Text :=
  (solid (components dependency)).getLast?.getD []

/-- Copy one store path: a directory as a tree, anything else as it is. The store's
files are read-only, so nothing is copied over an entry that is already there. -/
def copyDependency (store : Path) (fs : FileSystem γ) (dependency : Text) :
    Option (FileSystem γ) :=
  let source := solid (components dependency)
  let name := dependencyName dependency
  match (fs.resolve FileSystem.maxLinks [] source).filter fs.isDirectory with
  | some directory => fs.copyTree directory store name
  | none => do
      let parent ← fs.resolve FileSystem.maxLinks [] source.dropLast
      match ← fs.get? (parent ++ [name]) with
      | .directory _ => none
      | .file contents => fs.addEntry store name (.file contents)
      | .link target => fs.addEntry store name (.link target)

/-- One name of a directory in the walk: a link into the store is replaced. -/
def relink (cwd : Text) (root directory : Path) (fs : FileSystem γ) (name : Text) :
    Option (FileSystem γ) :=
  match fs.get? (directory ++ [name]) with
  | some (.link target) =>
      if isStoreTarget target then
        fs.replaceLink directory name (relativeTarget cwd root directory target)
      else some fs
  | some (.directory _) | some (.file _) | none => some fs

/-- The names in a directory that lead to directories, links to them included. -/
def dirNames (fs : FileSystem γ) (directory : Path) : List Text :=
  (fs.listing directory).filter fun name => fs.isDirectoryAt directory name

def fileNames (fs : FileSystem γ) (directory : Path) : List Text :=
  (fs.listing directory).filter fun name => !fs.isDirectoryAt directory name

/-- The directories the walk goes on to: those listed before that are no links now. -/
def onward (listed now : FileSystem γ) (directory : Path) : List Path :=
  ((dirNames listed directory).filter fun name => !now.isLink (directory ++ [name])).map
    fun name => directory ++ [name]

/-- One directory of the walk: what it leaves, and the directories it goes on to. -/
def visit (cwd : Text) (root : Path) (fs : FileSystem γ) (directory : Path) :
    Option (FileSystem γ × List Path) := do
  let now ← (dirNames fs directory ++ fileNames fs directory).foldlM (relink cwd root directory)
    (fs.makeWritable directory)
  return (now, onward fs now directory)

/-- The walk over the directories on the stack; it visits no more than `fuel`. -/
def walk (cwd : Text) (root : Path) : Nat → List Path → FileSystem γ → Option (FileSystem γ)
  | _, [], fs => some fs
  | 0, _ :: _, _ => none
  | fuel + 1, directory :: pending, fs => do
      let (fs, found) ← visit cwd root fs directory
      walk cwd root fuel (found ++ pending) fs

/-- Copy the base to a new directory, and the closure to the store in it. -/
def copyClosure (fs : FileSystem γ) (parent : Path) (name : Text) (base : Path)
    (graphs : List (List Text)) : Option (FileSystem γ) := do
  let fs ← fs.copyTree base parent name
  let fs := fs.makeWritable (parent ++ [name])
  let (fs, nix) ← ensureDirectory fs (parent ++ [name]) (text "nix")
  let (fs, store) ← ensureDirectory fs nix (text "store")
  (dependencies base graphs).foldlM (copyDependency store) fs

/-- `assemble`, for an output that does not exist yet. -/
def assemble (cwd : Text) (fs : FileSystem γ) (parent : Path) (name : Text) (base : Path)
    (graphs : List (List Text)) : Option (FileSystem γ) := do
  let fs ← copyClosure fs parent name base graphs
  walk cwd (parent ++ [name]) fs.entries.entries.length [parent ++ [name]] fs

end X86OnArm.Guest
