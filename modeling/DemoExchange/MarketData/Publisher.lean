import DemoExchange.MarketData.JsonEncoder

/-!
# The publisher

`market_data/src/publisher.cpp` with the sink of
`market_data/src/spdlog_sink.cpp`, whose pattern is the record and a newline.
-/

namespace DemoExchange.MarketData
set_option autoImplicit false
open Text Lab

def newline : UInt8 := '\n'.toUInt8

/-- `spdlog_sink::write`: what reaches stdout. -/
def SpdlogSink.write (record : Bytes) : Bytes := record ++ [newline]

/-- `publisher::send`, with the sink above. -/
def Publisher.send (lib : Nlohmann) (message : Message) : Bytes := SpdlogSink.write (JsonEncoder.encode lib message)

end DemoExchange.MarketData
