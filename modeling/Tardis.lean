import Tardis.Basic.Error
import Tardis.Cache.Client
import Tardis.Config.Effects
import Tardis.Config.Typing
import Tardis.Config.Sources
import Tardis.Config.Workspace
import Tardis.Search.Client
