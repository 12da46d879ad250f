import CutsceneCatalog.Import
import CutsceneCatalog.Proofs.PathSpelling

/-!
# Imports and the location of their path

An import looks at its path once, to find the location it stands for.  Everything else comes from
the location: the document, the folder that icons are looked for in, the file that an error names
and what the records say.

The first record names the location, so nothing less than the location decides either: two paths are
imported alike exactly if they have the same one (`Importer.load_eq_load_iff`).  As a location is
found again from its own text, a path and its absolute form are such paths, and so are all spellings
of a path (`Importer.loadWith_by_location`).
-/

namespace CutsceneCatalog

theorem Location.text_injective : Function.Injective Location.text := by
  intro l other h
  rw [← ofString_text l, h, ofString_text]

namespace Importer

/-- Two paths give the same definition or the same failure, and the same records, exactly if they
stand for the same location. -/
theorem load_eq_load_iff (importer : Importer) (path other : String) :
    importer.load other = importer.load path ↔
      importer.settings.locate importer.host other =
        importer.settings.locate importer.host path := by
  constructor
  · intro h
    have hrecord := congrArg (fun run => run.2.head?) h
    have htext := LogRecord.importing.inj (Option.some.inj hrecord)
    exact Location.text_injective htext
  · intro h
    simp only [load, h]

/-- A path is imported as its absolute form is, and as every other path that stands for the same
location, whatever options are passed along. -/
theorem loadWith_by_location (importer : Importer) (path : String) {α β : Type}
    (options : Option (List (String × α))) (others : Option (List (String × β))) :
    let location := importer.settings.locate importer.host path
    isVirtual location.text = false ∧
      (Location.ofString location.text).isAbsolute = true ∧
      importer.loadWith location.text others = importer.loadWith path options ∧
      (∀ other, importer.loadWith other others = importer.loadWith path options ↔
        importer.settings.locate importer.host other = location) ∧
      ∀ other, SpelledAs path other →
        importer.loadWith other others = importer.loadWith path options := by
  intro location
  have hnormal : location.IsNormal := Settings.isNormal_locate _ _ path
  have hagain : importer.settings.locate importer.host location.text = location :=
    hnormal.locate_text _ _
  have hiff (other : String) : importer.loadWith other others = importer.loadWith path options ↔
      importer.settings.locate importer.host other = location :=
    importer.load_eq_load_iff path other
  refine ⟨hnormal.isPlain_text.isVirtual_eq_false, ?_, (hiff _).mpr hagain, hiff, ?_⟩
  · rw [Location.ofString_text]
    exact hnormal.isAbsolute
  · intro other hspelled
    exact (hiff other).mpr (Settings.locate_of_spelledAs hspelled)

end Importer

end CutsceneCatalog
