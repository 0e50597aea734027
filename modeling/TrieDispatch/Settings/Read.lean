import TrieDispatch.Settings.Groups
import TrieDispatch.Toml.Document

namespace TrieDispatch.Settings

def parse (text : String) : Except SettingsError Settings := read Toml.parse? text

def load (path : String) (content : Option ByteArray) : Except SettingsError Settings :=
  readFile Toml.parse? path content

end TrieDispatch.Settings
