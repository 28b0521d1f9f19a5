import InitialLoad.Entity.Basic

/-!
# Settings

The six settings of the loader.  All are texts, and each has a name, under
which it is looked up, and a default.
-/

namespace InitialLoad

/-- The settings that can be made. -/
inductive SettingName where
  | uri
  | databaseName
  | userName
  | userPassword
  | userRole
  | logLevel
deriving DecidableEq, Repr

namespace SettingName

/-- Every setting, in the order of declaration. -/
def all : List SettingName :=
  [.uri, .databaseName, .userName, .userPassword, .userRole, .logLevel]

/-- The name under which a setting is looked up. -/
def name : SettingName → Text
  | .uri => "mongo_uri"
  | .databaseName => "appstore_db_name"
  | .userName => "app_user_name"
  | .userPassword => "app_user_password"
  | .userRole => "app_user_role"
  | .logLevel => "log_level"

/-- The value of a setting that is not made. -/
def default : SettingName → Text
  | .uri => "mongodb://mongodb:27017"
  | .databaseName => "appstore"
  | .userName => "You"
  | .userPassword => "SuperSecure"
  | .userRole => "readWrite"
  | .logLevel => "INFO"

theorem mem_all (s : SettingName) : s ∈ all := by cases s <;> simp [all]

end SettingName

/-- A value for every setting. -/
structure Settings where
  uri : Text
  databaseName : Text
  userName : Text
  userPassword : Text
  userRole : Text
  logLevel : Text
deriving DecidableEq, Repr

namespace Settings

/-- The value of a setting. -/
def get (s : Settings) : SettingName → Text
  | .uri => s.uri
  | .databaseName => s.databaseName
  | .userName => s.userName
  | .userPassword => s.userPassword
  | .userRole => s.userRole
  | .logLevel => s.logLevel

/-- The settings with the given values. -/
def of (value : SettingName → Text) : Settings :=
  ⟨value .uri, value .databaseName, value .userName, value .userPassword, value .userRole,
   value .logLevel⟩

@[simp] theorem get_of (value : SettingName → Text) (name : SettingName) :
    (of value).get name = value name := by
  cases name <;> rfl

/-- The database user of the application, with its role granted on the
database of the app store and nowhere else. -/
def principal (s : Settings) : DatabaseUser :=
  ⟨s.userName, s.userPassword, [⟨s.userRole, s.databaseName⟩]⟩

end Settings

end InitialLoad
