import GroupStore.Command
import GroupStore.Sqlite.Image

/-!
# The part of a disk that a command needs

A command looks at the configuration file and at the files that it names.  The places on the way
to them are taken into a file tree before the command runs, and what the command has changed is
put back afterwards.  Databases are kept on the disk as their images.

* `Command.configPaths`, `Command.storePaths` — the paths to look at;
* `Files.places` — the places on the way to a path;
* `Files.changes` — what one tree has and another has not.
-/

namespace GroupStore

/-! ### Places -/

namespace Files

/-- A place as an absolute path. -/
def pathOf (place : Place) : String := "/" ++ "/".intercalate place

/-- The places that are passed on the way down from a place, both ends included. -/
def placesBelow : Place → List String → List Place
  | place, [] => [place]
  | place, part :: rest =>
    place :: placesBelow (if part = ".." then place.dropLast else place ++ [part]) rest

/-- The places on the way to a path. -/
def places (fs : Files) (path : String) : List Place :=
  placesBelow (fs.origin path) (Path.components path)

/-- What a tree has at places where another tree has something else, directories first. -/
def changes (before after : Files) : List (Place × Node) :=
  after.nodes.filter fun entry => Sorted.get? entry.1 before.nodes ≠ some entry.2

end Files

/-! ### Contents -/

/-- What a file with some content holds: a database if the content is an image of one. -/
def Node.ofContent (content : ByteArray) : Node :=
  match Sqlite.Database.ofImage? content with
  | some db => .database db
  | none => .bytes content

/-- The content of a file; none for a directory. -/
def Node.content? : Node → Option ByteArray
  | directory => none
  | bytes content => some content
  | database db => some db.image.toUTF8

/-! ### Paths of a command -/

namespace Command

/-- The path of the configuration file, unless the environment's is refused. -/
def configPaths (c : Command) (environment : Option String) : List String :=
  match Config.resolvePath c.config environment with
  | .ok path => [path]
  | .error _ => []

/-- The configuration in a file, whether valid or not. -/
def written? (files : Files) (path : String) : Option Config :=
  ((files.read? path).bind fun content => String.fromUTF8? content).bind Config.parse?

/-- The paths of a database and of the files that the engine needs beside it. -/
def databasePaths (path : String) : List String :=
  path :: [World.journalEnding, World.logEnding, World.indexEnding].map (path ++ ·)

/-- The files that the configuration names, and those that its database needs. -/
def storePaths (c : Command) (environment : Option String) (files : Files) : List String :=
  (c.configPaths environment).flatMap fun path =>
    match written? files path with
    | none => []
    | some config =>
      config.audit.path.toList ++
        (Backend.text? config.session.options "path").toList.flatMap databasePaths

end Command

end GroupStore
