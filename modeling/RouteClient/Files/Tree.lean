import RouteClient.Files.PathText

/-!
# File trees

The state of a file system as a value: directories with named entries and files with their contents.
Looking up a path follows it step by step; a step through something that is no directory, or to a
name that is not there, fails.

A tree holds less than a file system. There are no links, so that walking a directory always comes
to an end, and no permissions, so that every directory can be listed and every file can be read and
replaced; the error of a walk, `failed to walk`, which reports a loop of links or a directory that
cannot be listed, therefore has no counterpart. Names are texts, and none that is not UTF-8 occurs.
A name can be too long, but the limit on the length of a whole path is left out.
-/

namespace RouteClient

/-- The content of a file: a text, or bytes that are no text. -/
inductive Content where
  | text (s : String)
  | bytes (data : List UInt8)
  deriving DecidableEq

/-- A file or a directory. -/
inductive FileNode where
  | file (content : Content)
  | directory (entries : List (String × FileNode))

/-- Why a file cannot be read or a directory cannot be made. -/
inductive AccessFault where
  | notFound
  | fileExists
  | notDirectory
  | isDirectory
  | nameTooLong
  | zeroCharacter
  | notText
  deriving DecidableEq

/-- The fault in words. -/
def AccessFault.message : AccessFault → String
  | .notFound => "No such file or directory (os error 2)"
  | .fileExists => "File exists (os error 17)"
  | .notDirectory => "Not a directory (os error 20)"
  | .isDirectory => "Is a directory (os error 21)"
  | .nameTooLong => "File name too long (os error 36)"
  | .zeroCharacter => "file name contained an unexpected NUL byte"
  | .notText => "stream did not contain valid UTF-8"

namespace FileNode

/-- The greatest number of bytes in a name. -/
def maxNameBytes : Nat := 255

/-- The entry with a given name. -/
def child? (entries : List (String × FileNode)) (name : String) : Option FileNode :=
  (entries.find? (·.1 = name)).map (·.2)

/-- The entries with one of them set. -/
def setEntry (name : String) (node : FileNode) :
    List (String × FileNode) → List (String × FileNode)
  | [] => [(name, node)]
  | (other, old) :: rest =>
    if other = name then (name, node) :: rest else (other, old) :: setEntry name node rest

/-- The node below a node that is reached by the names of directories and a last name. -/
def get? (node : FileNode) : List String → Option FileNode
  | [] => some node
  | name :: names =>
    match node with
    | .file _ => none
    | .directory entries => (child? entries name).bind (get? · names)

/-- The node with the node at given names set. Where a directory on the way is missing or is a file,
nothing changes. -/
def set (new : FileNode) : List String → FileNode → FileNode
  | [], _ => new
  | _ :: _, .file content => .file content
  | [name], .directory entries => .directory (setEntry name new entries)
  | name :: names, .directory entries =>
    match child? entries name with
    | some child => .directory (setEntry name (set new names child) entries)
    | none => .directory entries

/-- What keeps a name from being looked up, if anything. -/
def nameFault? (name : String) : Option AccessFault :=
  if maxNameBytes < name.utf8ByteSize then some .nameTooLong else none

/-- Follows steps from the directory `place`, given by the names that lead to it from the root, to
the names of the node they lead to. -/
def follow (root : FileNode) : (place steps : List String) → Except AccessFault (List String)
  | place, [] => .ok place
  | place, step :: steps =>
    match root.get? place with
    | some (.directory entries) =>
      if step = "." then follow root place steps
      else if step = ".." then follow root place.dropLast steps
      else match nameFault? step with
        | some fault => .error fault
        | none =>
          if (child? entries step).isSome then follow root (place ++ [step]) steps
          else .error .notFound
    | some (.file _) => .error .notDirectory
    | none => .error .notFound

/-- Whether a path holds a character that no path can hold. -/
def holdsZero (path : String) : Bool :=
  path.toList.contains '\x00'

/-- The node that a path leads to. -/
def lookUp (root : FileNode) (path : String) : Except AccessFault FileNode :=
  if holdsZero path then .error .zeroCharacter
  else if path = "" then .error .notFound
  else do
    let place ← root.follow [] (PathText.steps path)
    match root.get? place with
    | some node => .ok node
    | none => .error .notFound

/-- Whether a path leads to a file. -/
def isFile (root : FileNode) (path : String) : Bool :=
  match root.lookUp path with
  | .ok (.file _) => true
  | _ => false

/-- The text of a file that has been reached. -/
def textOf : FileNode → Except AccessFault String
  | .file (.text s) => .ok s
  | .file (.bytes _) => .error .notText
  | .directory _ => .error .isDirectory

/-- The text of the file that a path leads to. -/
def readText (root : FileNode) (path : String) : Except AccessFault String := do
  (← root.lookUp path).textOf

/-- Whether a name has the extension `json`: it ends with it and has something before the dot. -/
def hasJsonExtension (name : String) : Bool :=
  match name.toList.reverse with
  | 'n' :: 'o' :: 's' :: 'j' :: '.' :: _ :: _ => true
  | _ => false

/-- Entries in ascending order of their names. -/
def inNameOrder {α : Type} (entries : List (String × α)) : List (String × α) :=
  entries.mergeSort fun a b => decide (a.1 ≤ b.1)

mutual

/-- The JSON files below a directory with their paths, where `path` is that of the directory. The
entries of each directory are taken in the order of their names, and those of a directory where its
name stands. -/
def jsonFiles (path : String) : FileNode → List (String × FileNode)
  | .file _ => []
  | .directory entries => (inNameOrder (entryFiles path entries)).flatMap (·.2)

/-- The JSON files in and below each entry of a directory. -/
def entryFiles (path : String) :
    List (String × FileNode) → List (String × List (String × FileNode))
  | [] => []
  | (name, .file content) :: rest =>
    (name, if hasJsonExtension name then [(PathText.join path name, .file content)] else []) ::
      entryFiles path rest
  | (name, .directory entries) :: rest =>
    (name, jsonFiles (PathText.join path name) (.directory entries)) :: entryFiles path rest

end

mutual

/-- All files at and below a node with their paths, where `path` is that of the node. -/
def files (path : String) : FileNode → List (String × Content)
  | .file content => [(path, content)]
  | .directory entries => filesOfEntries path entries

/-- All files in and below the entries of a directory. -/
def filesOfEntries (path : String) : List (String × FileNode) → List (String × Content)
  | [] => []
  | (name, node) :: rest => files (PathText.join path name) node ++ filesOfEntries path rest

end

/-- The files that are new or have another content after a change of a node, with their paths below
the node's `path`. -/
def changes (path : String) (before after : FileNode) : List (String × Content) :=
  (after.files path).filter fun file => !(before.files path).contains file

/-- The fault when a file is in the way of a directory that is to be made, with steps left behind
it. The last directory is tried first, and a file on the way to it is no directory to go through.
Only when one on the way is missing are they made one after the other, and then the file is found
where a directory is to be made. -/
def obstruction (made : Bool) (left : List String) : AccessFault :=
  if made || left.isEmpty then .fileExists else .notDirectory

/-- Makes the directories along the steps that remain from `place`, where `made` says whether one
had to be made on the way to it. -/
def makeRemaining (root : FileNode) (made : Bool) : (place steps : List String) →
    FileNode × Except AccessFault (List String)
  | place, [] => (root, .ok place)
  | place, step :: steps =>
    if step = "." then makeRemaining root made place steps
    else if step = ".." then makeRemaining root made place.dropLast steps
    else match nameFault? step with
      | some fault => (root, .error fault)
      | none =>
        match root.get? (place ++ [step]) with
        | some (.directory _) => makeRemaining root made (place ++ [step]) steps
        | some (.file _) => (root, .error (obstruction made steps))
        | none =>
          makeRemaining (set (.directory []) (place ++ [step]) root) true (place ++ [step]) steps

/-- Makes sure that the directories along the steps from `place` exist. Gives the tree and the names
that lead to the last of them, or the tree as far as it was made when something is in the way. -/
def makeDirectories (root : FileNode) (place steps : List String) :
    FileNode × Except AccessFault (List String) :=
  root.makeRemaining false place steps

/-- Makes the directory of a path and all directories above it. -/
def createDirectories (root : FileNode) (path : String) :
    FileNode × Except AccessFault (List String) :=
  if holdsZero path then (root, .error .zeroCharacter)
  else makeDirectories root [] (PathText.steps path)

/-- Writes a text file into the directory at `place`. -/
def writeText (root : FileNode) (place : List String) (name text : String) :
    FileNode × Except AccessFault Unit :=
  match root.get? (place ++ [name]) with
  | some (.directory _) => (root, .error .isDirectory)
  | _ => (set (.file (.text text)) (place ++ [name]) root, .ok ())

end FileNode

end RouteClient
