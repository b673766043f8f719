import LibEsClient.FlatMemory
import LibEsClient.Machine
import LibEsClient.Framing
import LibEsClient.Spans
import LibEsClient.Separation
import LibEsClient.MsgParserCore
import LibEsClient.LengthPrefix
import LibEsClient.MsgParserBounds
import LibEsClient.MsgParserQueue
import LibEsClient.MsgParserCompaction
import LibEsClient.MsgParserStream
import LibEsClient.ReceiveLoop
import LibEsClient.Reading
import LibEsClient.MsgParserEffects
import LibEsClient.MsgParserDrain
import LibEsClient.MsgParserLifetime
import LibEsClient.MsgParserOverlap
import LibEsClient.BoundedQueue
import LibEsClient.MsgParserRoom
import LibEsClient.ByteOrder
import LibEsClient.CString
import LibEsClient.WtfUuid
import LibEsClient.HeaderWire
import LibEsClient.HeaderLayout
import LibEsClient.TcpMessages
import LibEsClient.Connection
import LibEsClient.Exchange
import LibEsClient.ProtoWire
import LibEsClient.ProtoMessage
import LibEsClient.EsProto
import LibEsClient.EsProtoHelper
import LibEsClient.EsProtoPack
import LibEsClient.EsProtoRoundTrip
import LibEsClient.EsProtoResponses
import LibEsClient.EsProtoForward
import LibEsClient.EsProtoEvents
import LibEsClient.EsProtoReencode
import LibEsClient.MessageWire
import LibEsClient.InHeap
import LibEsClient.InHeapObjects
import LibEsClient.InHeapCalls
import LibEsClient.InHeapRuns
import LibEsClient.InHeapLoop
import LibEsClient.ClientRoom
