import SchemaInstaller.Manifest.Basic

/-!
# Options of an installer

Some tables belong to the host that a plugin is installed on: an installer neither creates nor drops
them. Their names stand without the prefix, in lower case, each once and in order.
-/

namespace SchemaInstaller

/-- Under which names triggers are dropped: those they were installed under, or those of the
manifest. -/
inductive TriggerDrop
  | installed
  | declared
  deriving Repr, DecidableEq

namespace TriggerDrop

/-- The choices by their names. -/
def named : List (String × TriggerDrop) := [("installed", installed), ("original", declared)]

/-- The name of a choice. -/
def name : TriggerDrop → String
  | installed => "installed"
  | declared => "original"

end TriggerDrop

/-- A name put into a list in order, unless it is there. -/
def insertName (name : String) : List String → List String
  | [] => [name]
  | other :: r =>
    if name < other then name :: other :: r
    else if name = other then other :: r
    else other :: insertName name r

/-- Names in order, each once. -/
def sortedNames (names : List String) : List String := names.foldr insertName []

/-- The tables of a host, those of a network of sites included. -/
def hostTables : List String :=
  ["blog_versions", "blogmeta", "blogs", "commentmeta", "comments", "links", "options", "postmeta",
    "posts", "registration_log", "signups", "site", "sitemeta", "term_relationships",
    "term_taxonomy", "termmeta", "terms", "usermeta", "users"]

/-- What an installer is compiled with. -/
structure InstallerOptions where
  coreTables : List String
  triggerDrop : TriggerDrop
  deriving Repr, DecidableEq

namespace InstallerOptions

/-- The usual host, and triggers dropped under the names they were installed under. -/
def standard : InstallerOptions := ⟨hostTables, .installed⟩

/-- The names of core tables as options hold them: in lower case, without blanks around them, and
without blank ones. -/
def coreNames (names : List String) : List String :=
  let lower := names.map fun n => Text.lower (Text.trim n.toList)
  sortedNames ((lower.filter (!·.isEmpty)).map String.ofList)

/-- The options with other core tables. -/
def withCoreTables (o : InstallerOptions) (names : List String) : InstallerOptions :=
  { o with coreTables := coreNames names }

/-- Whether a table belongs to the host. -/
def isCoreTable (o : InstallerOptions) (name : String) : Bool :=
  o.coreTables.contains (lowerCase name)

end InstallerOptions

end SchemaInstaller
