import PlcTags.Text.Trim

/-!
# The root folder

The folder that holds the service's files: the one given on the command line, else in
the environment, else in the settings file, else the user's folder for local data.
-/

namespace PlcTags

/-- What the environment says, for each variable that is set. -/
structure Environment where
  rootFolder : Option String := none
  root : Option String := none
  dataHome : Option String := none
  home : String

/-- A folder or file within a folder; an absolute path stands for itself. -/
def joinPath (folder name : String) : String :=
  if name.startsWith "/" || folder.isEmpty then name
  else if folder.endsWith "/" then folder ++ name
  else folder ++ "/" ++ name

namespace Environment

/-- The folder for the user's local data. -/
def localData (environment : Environment) : String :=
  match environment.dataHome with
  | some folder =>
    if folder.startsWith "/" then folder else joinPath environment.home ".local/share"
  | none => joinPath environment.home ".local/share"

/-- The root folder that the variables give: the first that is not blank. -/
def givenFolder? (environment : Environment) : Option String :=
  [environment.rootFolder, environment.root].findSome? fun value =>
    value.filter (!Text.isAllBlank ·)

end Environment

def rootFolder (argument : Option String) (environment : Environment)
    (configured : Option String) : String :=
  argument.getD (environment.givenFolder?.getD
    (configured.getD (joinPath environment.localData "tagsync")))

def databaseFile (root : String) : String :=
  joinPath root "tagsync.db"

end PlcTags
