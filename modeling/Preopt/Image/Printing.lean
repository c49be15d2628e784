import Preopt.Image
import Preopt.Yaml.Print

/-! An image as a YAML document. -/

namespace Preopt.Image

open Yaml (Layout)

def targetLayout (t : Target) : Layout :=
  .record [("os", .text t.os.name), ("arch", .text t.arch.name),
    ("native_bridge", .text t.nativeBridge.name)]

def texts (list : List String) : Layout := .list (list.map .text)

def paths (list : List Path) : Layout := texts (list.map (·.text))

def layout (i : Image) : List (String × Layout) :=
  [("name", .text i.name),
   ("stem", .text i.stem),
   ("modules", texts i.modules),
   ("dex_locations", texts i.dexLocations),
   ("dex_paths", paths i.dexPaths),
   ("dir", .text i.dir.text),
   ("symbols_dir", .text i.symbolsDir.text),
   ("targets", .list (i.targets.map targetLayout)),
   ("images", .record (i.images.map fun e => (e.1.name, .text e.2.text))),
   ("images_deps", .record (i.imageDeps.map fun e => (e.1.name, paths e.2))),
   ("zip", match i.zip with | some p => .text p.text | none => .null)]

def print (i : Image) : String := Layout.print i.layout

end Preopt.Image
