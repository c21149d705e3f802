import SeriesQuery.Settings.Basic
import SeriesQuery.Toml.Document

/-!
# Settings files

A settings file is a TOML document. `Settings.read?` gives its settings, and nothing for a text that
is no document or in which a setting has the wrong type. In a file a list may stand for a structure
with more elements than it has fields.
-/

namespace SeriesQuery.Settings

/-- The settings of a file. -/
def read? (s : Text) : Option Settings := (Toml.readDocument? s).bind (ofData? .ignored)

/-- The settings of the first file that has some, each text being the content of one file; the
defaults if none has. -/
def firstOf (files : List Text) : Settings := (files.findSome? read?).getD {}

end SeriesQuery.Settings
