/-
# MediaSniff.Builtin — the built-in database

The database that is used where none is named. `builtin?` compiles its document, and
`builtinTable` lists its types.
-/
import MediaSniff.Builtin.Archives
import MediaSniff.Builtin.Markup
import MediaSniff.Builtin.Media
import MediaSniff.Builtin.Programs
import MediaSniff.Builtin.Text
import MediaSniff.Builtin.Volumes
import MediaSniff.Database.Basic
import MediaSniff.TypeTable

set_option autoImplicit false

namespace MediaSniff

/-- The document of the built-in database. -/
def builtinDescriptor : Descriptor where
  entries :=
    Builtin.texts ++ Builtin.markups ++ Builtin.media ++ Builtin.archives ++
      Builtin.programs ++ Builtin.volumes

/-- The built-in database. -/
def builtin? : Except LoadError Database := Database.ofDescriptor builtinDescriptor

/-- The types of the built-in database. -/
def builtinTable : List TypeRow :=
  TypeTable.ofRows (builtinDescriptor.entries.map fun e => ⟨e.name, e.comment⟩)

end MediaSniff
