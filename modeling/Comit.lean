import Comit.Rust
import Comit.Text.Decimal
import Comit.Text.Float
import Comit.Nectar.Rate
import Comit.Nectar.Spread
import Comit.Nectar.Dai
import Comit.Nectar.DaiChain
import Comit.Nectar.Swap
import Comit.Nectar.SwapProtocol
import Comit.Rfc003.Validation
import Comit.Cnd.HalightHerc20
import Comit.TradingService.EventStore
import Comit.TradingService.Interleaving
import Comit.TradingService.Schedules
