/-!
# Settings

The parts of `SETTINGS` that several components read.
-/

namespace BackendProdReady.Conf.Settings

inductive Environment
  | localEnv
  | dev
  | prod
deriving DecidableEq

def Environment.value : Environment → String
  | .localEnv => "local"
  | .dev => "dev"
  | .prod => "prod"

end BackendProdReady.Conf.Settings
