import Cryptoki.Text.Padded
import Cryptoki.Version

/-! What a module tells about itself. -/
namespace Cryptoki

structure NativeModuleInfo where
  cryptoki : Version
  manufacturer : Bytes
  description : Bytes
  library : Version
  deriving DecidableEq

structure ModuleInfo where
  cryptoki : Version
  manufacturer : String
  description : String
  library : Version
  deriving DecidableEq

namespace ModuleInfo

def ofNative (n : NativeModuleInfo) : ModuleInfo :=
  ⟨n.cryptoki, paddedText n.manufacturer, paddedText n.description, n.library⟩

def text (i : ModuleInfo) : String :=
  i.manufacturer ++ " " ++ i.description ++ " (cryptoki " ++ i.cryptoki.text ++ ", library " ++
    i.library.text ++ ")"

end ModuleInfo

end Cryptoki
